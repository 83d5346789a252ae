import Mathlib.Data.List.Forall2
import ScoreScript.Proofs.Script.Operand
import ScoreScript.Proofs.Script.Lines

/-!
Expressions that are read back. Tokens are an operand if every rule for expressions that comes back
often enough reads them as one (`IsOperand`), and they can be called if arguments may follow them as
well (`IsCallee`). Operands are put together from literals and names by signs, brackets, commas
and calls.
-/

namespace ScoreScript.Script.Grammar

open Rule

variable {hole : Nat → String → Except Error Expr} {kinds : List TokenKind} {P : Expr → Prop}

/-- The tokens after which an expression may be called. -/
def endsCallee (kind : TokenKind) : Prop :=
  endsOperand kind = true ∨ kind = .op .leftParen

/-- The tokens are not taken for the name of an argument, whatever follows but an equals sign. -/
def Unnamed (kinds : List TokenKind) : Prop :=
  ∀ last rest id more, last ≠ .op .assign → kinds ++ last :: rest ≠ .name id :: .op .assign :: more

/-- The tokens are read as an operand where something ends it. -/
structure IsOperand (hole : Nat → String → Except Error Expr) (kinds : List TokenKind)
    (P : Expr → Prop) : Prop where
  opens : kinds.head?.any startsSigned = true
  unnamed : Unnamed kinds
  reads : ∀ {n : Nesting} {size : Nat} {last : TokenKind} {rest : List TokenKind}, n.limit = 0 →
    kinds.length ≤ size → endsOperand last = true →
    Reads n (factor (within hole size)) kinds (last :: rest) P

/-- The tokens are read as an operand that calls may follow. -/
structure IsCallee (hole : Nat → String → Except Error Expr) (kinds : List TokenKind)
    (P : Expr → Prop) : Prop where
  opens : kinds.head?.any startsOperand = true
  unnamed : Unnamed kinds
  reads : ∀ {n : Nesting} {size : Nat} {start : Pos} {last : TokenKind}
    {more rest tail : List TokenKind} {Q : Expr → Prop}, n.limit = 0 → kinds.length ≤ size →
    more ++ rest = last :: tail → endsCallee last →
    (∀ e, P e → Reads n (loop (postfixed (within hole size) start) e) more rest Q) →
    Reads n (atom (within hole size) >>= loop (postfixed (within hole size) start))
      (kinds ++ more) rest Q

/-! ### No name of an argument -/

theorem Unnamed.single (kind : TokenKind) : Unnamed [kind] := by
  rintro last rest id more other same
  exact other (List.cons.inj (List.cons.inj same).2).1

theorem Unnamed.of_head {kind : TokenKind} (other : ∀ id, kind ≠ .name id) :
    Unnamed (kind :: kinds) := by
  rintro last rest id more - same
  exact other id (List.cons.inj same).1

theorem Unnamed.append {kind : TokenKind} {more : List TokenKind} (h : Unnamed kinds)
    (other : kind ≠ .op .assign) : Unnamed (kinds ++ kind :: more) := by
  intro last rest id behind _ same
  rw [List.append_assoc, List.cons_append] at same
  exact h kind _ id behind other same

/-! ### Operands as expressions -/

theorem assign_ne_of_endsOperand {last : TokenKind} (ends : endsOperand last = true) :
    last ≠ .op .assign := by
  rintro rfl
  cases ends

theorem IsOperand.mono {Q : Expr → Prop} (h : IsOperand hole kinds P) (weaker : ∀ e, P e → Q e) :
    IsOperand hole kinds Q :=
  ⟨h.opens, h.unnamed, fun free size ends => (h.reads free size ends).mono weaker⟩

theorem IsCallee.mono {Q : Expr → Prop} (h : IsCallee hole kinds P) (weaker : ∀ e, P e → Q e) :
    IsCallee hole kinds Q :=
  ⟨h.opens, h.unnamed, fun free size ahead ends later =>
    h.reads free size ahead ends fun e holds => later e (weaker e holds)⟩

/-- What can be called is an operand. -/
theorem IsCallee.operand (h : IsCallee hole kinds P) : IsOperand hole kinds P := by
  refine ⟨opens_signed h.opens, h.unnamed, fun {n size last rest} free fits ends => ?_⟩
  have alone : Reads n (primary (within hole size)) kinds (last :: rest) P := by
    unfold primary
    refine .bind_here fun start => ?_
    have read : Reads n (atom (within hole size) >>= loop (postfixed (within hole size) start))
        (kinds ++ []) (last :: rest) P := h.reads free fits rfl (.inl ends) fun e holds =>
      .loop_stop (postfixed_ended ends start e) holds
    rwa [List.append_nil] at read
  exact factor_of_primary h.opens ends alone

namespace IsOperand

variable {n : Nesting} {size : Nat} {last : TokenKind} {rest : List TokenKind}

theorem expression (h : IsOperand hole kinds P) (free : n.limit = 0) (fits : kinds.length < size)
    (ends : endsOperand last = true) :
    Reads n (expressionWithin hole size) kinds (last :: rest) P := by
  obtain ⟨less, rfl⟩ : ∃ less, size = less + 1 := ⟨size - 1, by omega⟩
  exact expression_of_factor h.opens ends (by rw [free]; rfl)
    (h.reads (n := ⟨n.limit, n.depth + 1⟩) free (by omega) ends)

theorem operation (h : IsOperand hole kinds P) (min : Level) (free : n.limit = 0)
    (fits : kinds.length < size) (ends : endsOperand last = true) :
    Reads n (operationWithin hole size min) kinds (last :: rest) P := by
  obtain ⟨less, rfl⟩ : ∃ less, size = less + 1 := ⟨size - 1, by omega⟩
  exact operation_of_factor h.opens ends min (h.reads (n := n) free (by omega) ends)

/-- A sign before an operand. -/
theorem minus (h : IsOperand hole kinds P) : IsOperand hole (.op .minus :: kinds)
    fun e => ∃ operand span, e = .unary .minus operand span ∧ P operand := by
  refine ⟨rfl, .of_head nofun, fun {n size last rest} free fits ends => ?_⟩
  rw [List.length_cons] at fits
  obtain ⟨less, rfl⟩ : ∃ less, size = less + 1 := ⟨size - 1, by omega⟩
  have operand : Reads ⟨n.limit, n.depth + 1⟩ (factor (within hole less)) kinds (last :: rest) P :=
    h.reads free (by omega) ends
  unfold factor
  refine .bind_here fun start => .bind_look (.op .minus) rfl (.bind_take rfl fun _ _ => ?_)
  refine .bind_all (.nested (by rw [free]; rfl) operand) fun e holds => ?_
  exact .bind_span fun span => .pure ⟨e, span, rfl, holds⟩

end IsOperand

/-! ### Literals, names and brackets -/

/-- What is read at once can be called. -/
theorem IsCallee.of_atom (opens : kinds.head?.any startsOperand = true) (unnamed : Unnamed kinds)
    (reads : ∀ {n : Nesting} {size : Nat} {last : TokenKind} {rest : List TokenKind},
      n.limit = 0 → kinds.length ≤ size → endsCallee last →
      Reads n (atom (within hole size)) kinds (last :: rest) P) : IsCallee hole kinds P := by
  refine ⟨opens, unnamed, fun {n size start last more rest tail Q} free fits ahead ends later => ?_⟩
  refine .bind ?_ later
  rw [ahead]
  exact reads free fits ends

theorem IsCallee.name (id : String) :
    IsCallee hole [.name id] fun e => ∃ span, e = .name id .load span :=
  .of_atom rfl (.single _) fun _ _ _ => atom_name

theorem ne_string_of_endsCallee {last : TokenKind} (ends : endsCallee last) :
    ∀ value kind, last ≠ .string value kind := by
  rintro value kind rfl
  rcases ends with ends | paren
  · cases ends
  · cases paren

theorem IsCallee.text (value : String) : IsCallee hole [.string value .text] (IsText value) :=
  .of_atom rfl (.single _) fun _ _ ends => atom_text (ne_string_of_endsCallee ends)

/-- A bytes literal by itself is the constant of its bytes. -/
theorem IsCallee.bytes (value : String) :
    IsCallee hole [.string value .bytes]
      fun e => ∃ span, e = .constant (.bytes (utf8 value)) span :=
  .of_atom rfl (.single _) fun _ _ ends => atom_bytes (ne_string_of_endsCallee ends)

/-- Tokens that are literals by themselves. -/
theorem IsCallee.constant {kind : TokenKind} {value : Constant}
    (starts : startsOperand kind = true) (known : constantOf? kind = some value) :
    IsCallee hole [kind] fun e => ∃ span, e = .constant value span := by
  refine .of_atom (by simpa using starts) (.single _) fun _ _ _ => ?_
  unfold atom
  refine .bind_here fun start => .bind_look kind rfl ?_
  split
  · cases known
  · cases known
  · cases known
  · cases known
  · cases known
  · rw [known]
    refine .bind_take ?_ fun token _ => .pure ⟨token.span, rfl⟩
    cases kind <;> first | rfl | cases starts

/-- What begins with an expression between brackets; the bracket before it has been read. -/
theorem parenthesized_of_operand {Q : Expr → Prop} {n : Nesting} {size : Nat} {start : Pos}
    {last : TokenKind} {more rest : List TokenKind} (h : IsOperand hole kinds P)
    (free : n.limit = 0) (fits : kinds.length < size) (ends : endsOperand last = true)
    (later : ∀ first, P first → Reads n (do
      if ← accept (.op .rightParen) then return first
      else
        let items ← displayItems (within hole size) first (.op .rightParen)
        return .tuple items .load (← spanFrom start)) (last :: more) rest Q) :
    Reads n (parenthesized (within hole size) start) (kinds ++ last :: more) rest Q := by
  obtain ⟨kind, ahead, starts⟩ := exists_ahead h.opens (last :: more ++ rest)
  rw [← List.append_assoc] at ahead
  have other (mark : Mark) (apart : opensSigned mark = false) : Mark.ofKind? kind ≠ some mark :=
    ofKind?_ne_of_startsSigned starts apart
  have noFor : (Mark.ofKind? last == some (.word .forKw)) = false := by
    rcases endsOperand_cases ends with rfl | rfl | rfl | rfl | rfl <;> rfl
  have first : Reads n (namedExpression (within hole size)) kinds (last :: (more ++ rest)) P :=
    namedExpression_of_expression ends (h.expression free fits ends)
  unfold parenthesized
  refine .bind_accept_other kind ahead (other _ rfl) (.bind_isNext kind ahead ?_)
  rw [beq_eq_false_iff_ne.2 (other _ rfl)]
  refine .bind_isNext kind ahead ?_
  rw [beq_eq_false_iff_ne.2 (other _ rfl)]
  refine .bind first fun e holds => .bind_isNext last rfl ?_
  rw [noFor]
  exact later e holds

/-- Brackets around what is read one level deeper. -/
theorem IsCallee.of_parenthesized
    (reads : ∀ {n : Nesting} {size : Nat} {start : Pos} {rest : List TokenKind}, n.limit = 0 →
      kinds.length ≤ size → Reads n (parenthesized (within hole size) start) kinds rest P) :
    IsCallee hole (.op .leftParen :: kinds) P := by
  refine .of_atom rfl (.of_head nofun) fun {n size last rest} free fits _ => ?_
  rw [List.length_cons] at fits
  unfold atom
  refine .bind_here fun start => .bind_look (.op .leftParen) rfl (.bind_take rfl fun _ _ => ?_)
  exact .nested (by rw [free]; rfl) (reads free (by omega))

/-- An operand in brackets. -/
theorem IsOperand.group (h : IsOperand hole kinds P) :
    IsCallee hole (.op .leftParen :: (kinds ++ [.op .rightParen])) P := by
  refine .of_parenthesized fun {n size start rest} free fits => ?_
  rw [List.length_append, List.length_singleton] at fits
  exact parenthesized_of_operand h free fits rfl fun e holds => .bind_accept rfl (.pure holds)

/-- The tokens between the brackets of a tuple; a single item has a comma behind it. -/
def tupleKinds : List (List TokenKind) → List TokenKind
  | [only] => only ++ [.op .comma]
  | items => [TokenKind.op .comma].intercalate items

/-- The tokens between the brackets of a tuple are those of its items, with a comma behind the
first one at least. -/
theorem exists_tupleKinds (first : List TokenKind) (more : List (List TokenKind)) :
    ∃ comma behind, (comma = [] ∨ comma = [.op .comma]) ∧
      furtherKinds more ++ comma = .op .comma :: behind ∧
      tupleKinds (first :: more) = first ++ .op .comma :: behind := by
  cases more with
  | nil => exact ⟨_, _, .inr rfl, rfl, rfl⟩
  | cons next more =>
    refine ⟨[], _, .inl rfl, List.append_nil _, ?_⟩
    rw [tupleKinds, intercalate_eq_furtherKinds]
    · rfl
    · nofun

section

variable {ι : Type} {kindsOf : ι → List TokenKind} {Item : ι → Expr → Prop} {n : Nesting}
  {size : Nat}

theorem IsOperand.opens_other (h : IsOperand hole kinds P) {mark : Mark}
    (apart : opensSigned mark = false) :
    kinds.head?.any (Mark.ofKind? · != some mark) = true := by
  obtain ⟨kind, here, starts⟩ := (Option.any_eq_true _ _).1 h.opens
  exact (Option.any_eq_true _ _).2
    ⟨kind, here, bne_iff_ne.2 (ofKind?_ne_of_startsSigned starts apart)⟩

/-- Further items are added to a tuple. -/
theorem adds_tuple (free : n.limit = 0) (first : ι) (more : List ι)
    (all : ∀ item ∈ more, IsOperand hole (kindsOf item) (Item item))
    (fits : ∀ item ∈ more, (kindsOf item).length < size) :
    Adds n .rightParen (fun items => do return (← starredExpression (within hole size)) :: items)
      (more.map kindsOf) (fun read => List.Forall₂ Item [first] read.reverse)
      (fun read => List.Forall₂ Item (first :: more) read.reverse) := by
  let Holds (items : List ι) (read : List Expr) : Prop := List.Forall₂ Item items read.reverse
  have adds : Adds n .rightParen
      (fun items => do return (← starredExpression (within hole size)) :: items)
      (more.map kindsOf) (Holds [first]) (Holds ([first] ++ more)) := by
    refine .of_forall Holds [first] more (fun item member => (all item member).opens_other rfl) ?_
    intro front item back split read holds last rest follows
    have member : item ∈ more := by rw [split]; simp
    have ends : endsOperand last = true := by rcases follows with rfl | rfl <;> rfl
    have value : Reads n (starredExpression (within hole size)) (kindsOf item) (last :: rest)
        (Item item) := starredExpression_of_expression (all item member).opens
      ((all item member).expression free (fits item member) ends)
    refine value.bind_all fun e same => .pure ?_
    change List.Forall₂ Item _ (List.reverse (e :: read))
    rw [List.reverse_cons]
    exact List.rel_append holds (.cons same .nil)
  exact adds

/-- A tuple, in brackets. -/
theorem IsCallee.tuple {items : List ι}
    (all : ∀ item ∈ items, IsOperand hole (kindsOf item) (Item item)) :
    IsCallee hole (.op .leftParen :: (tupleKinds (items.map kindsOf) ++ [.op .rightParen]))
      fun e => ∃ es span, e = .tuple es .load span ∧ List.Forall₂ Item items es := by
  refine .of_parenthesized fun {n size start rest} free fits => ?_
  cases items with
  | nil =>
    unfold parenthesized
    exact .bind_accept rfl (.bind_span fun span => .pure ⟨[], span, rfl, .nil⟩)
  | cons first more =>
    obtain ⟨comma, behind, noMore, further, kinds⟩ := exists_tupleKinds (kindsOf first)
      (more.map kindsOf)
    obtain ⟨here, others⟩ := List.forall_mem_cons.1 all
    have lengths := congrArg List.length further
    rw [List.map_cons, kinds, List.append_assoc, List.cons_append] at fits ⊢
    simp only [List.length_append, List.length_cons] at fits lengths
    refine parenthesized_of_operand here free (by omega) rfl fun e holds => ?_
    refine .bind_accept_other (.op .comma) rfl nofun ?_
    have short : ∀ item ∈ more, (kindsOf item).length < size := fun item member => by
      have := length_le_furtherKinds (List.mem_map_of_mem (f := kindsOf) member)
      omega
    have one : List.Forall₂ Item [first] [e].reverse := .cons holds .nil
    have items := (adds_tuple free first more others short).addFurther noMore nofun rest one
    rw [further] at items
    have read : Reads n (displayItems (within hole size) e (.op .rightParen))
        (.op .comma :: behind ++ [.op .rightParen]) rest (List.Forall₂ Item (first :: more)) := by
      unfold displayItems furtherItems
      exact .bind (.bind_all items fun read all => .pure all) fun es all =>
        .bind_all (.expect_taken rfl) fun _ _ => .pure all
    exact .bind_all read fun es all => .bind_span fun span => .pure ⟨es, span, rfl, all⟩

end

/-! ### Calls -/

/-- The tokens of an argument with a name, or of a mapping of arguments. -/
def keywordKinds (name : Option String) (value : List TokenKind) : List TokenKind :=
  match name with
  | some id => .name id :: .op .assign :: value
  | none => .op .power :: value

section

variable {n : Nesting} {size : Nat} {last : TokenKind} {rest : List TokenKind} {read : Arguments}

theorem reads_isKeywordNext (some_kind : kinds ≠ []) (unnamed : Unnamed kinds)
    (other : last ≠ .op .assign) :
    Reads n isKeywordNext [] (kinds ++ last :: rest) (· = false) := by
  obtain ⟨first, second, more, ahead⟩ : ∃ first second more,
      kinds ++ last :: rest = first :: second :: more := by
    cases kinds with
    | nil => exact absurd rfl some_kind
    | cons first kinds =>
      cases kinds with
      | nil => exact ⟨first, last, rest, rfl⟩
      | cons second more => exact ⟨first, second, more ++ last :: rest, rfl⟩
  have apart := unnamed last rest
  rw [ahead] at apart ⊢
  unfold isKeywordNext
  refine .bind_look first rfl (.bind_second second rfl ?_)
  split
  · exact absurd rfl (apart _ more other)
  · exact .pure rfl

theorem argument_of_operand (h : IsOperand hole kinds P) (free : n.limit = 0)
    (fits : kinds.length < size) (follows : followsItem .rightParen last)
    (noField : read.keywords = []) :
    Reads n (argument (within hole size) read) kinds (last :: rest)
      fun next => ∃ arg, next = read.addPositional arg ∧ P arg := by
  obtain ⟨kind, ahead, starts⟩ := exists_ahead h.opens (last :: rest)
  have other (mark : Mark) (apart : opensSigned mark = false) : Mark.ofKind? kind ≠ some mark :=
    ofKind?_ne_of_startsSigned starts apart
  have ends : endsOperand last = true := by rcases follows with rfl | rfl <;> rfl
  have some_kind : kinds ≠ [] := by
    rintro rfl
    cases h.opens
  have noFor : (Mark.ofKind? last == some (.word .forKw)) = false := by
    rcases follows with rfl | rfl <;> rfl
  have positional (start : Pos) : Reads n (positionalArgument (within hole size) start) kinds
      (last :: rest) P := by
    have value : Reads n (namedExpression (within hole size)) kinds (last :: rest) P :=
      namedExpression_of_expression ends (h.expression free fits ends)
    unfold positionalArgument
    refine .bind_all value fun e holds => .bind_isNext last rfl ?_
    rw [noFor]
    exact .pure holds
  unfold argument
  refine .bind_here fun start => .bind_accept_other kind ahead (other _ rfl)
    (.bind_accept_other kind ahead (other _ rfl) (.bind_nothing
      (reads_isKeywordNext some_kind h.unnamed (assign_ne_of_endsOperand ends)) ?_))
  rintro _ rfl
  refine .bind_all (positional start) fun arg holds => ?_
  rw [noField]
  exact .pure ⟨arg, rfl, holds⟩

theorem argument_of_keyword {name : Option String} (h : IsOperand hole kinds P) (free : n.limit = 0)
    (fits : kinds.length < size) (ends : endsOperand last = true)
    (fresh : ∀ id ∈ name, read.names id = false) :
    Reads n (argument (within hole size) read) (keywordKinds name kinds) (last :: rest)
      fun next => ∃ arg, next = read.addKeyword arg ∧ arg.name = name ∧ P arg.value := by
  have value : Reads n (within hole size).expression kinds (last :: rest) P :=
    h.expression free fits ends
  unfold argument
  cases name with
  | none =>
    refine .bind_here fun start => .bind_accept rfl (.bind_all value fun e holds => ?_)
    exact .bind_span fun span => .pure ⟨_, rfl, rfl, holds⟩
  | some id =>
    have named : Reads n isKeywordNext [] (keywordKinds (some id) kinds ++ last :: rest)
        (· = true) :=
      .bind_look (.name id) rfl (.bind_second (.op .assign) rfl (.pure rfl))
    refine .bind_here fun start => .bind_accept_other (.name id) rfl nofun
      (.bind_accept_other (.name id) rfl nofun (.bind_nothing named ?_))
    rintro _ rfl
    refine .bind_one .name_taken ?_
    rintro _ rfl
    refine .bind_take rfl fun token _ => .bind_all value fun e holds => .bind_span fun span => ?_
    rw [fresh _ rfl]
    exact .pure ⟨_, rfl, rfl, holds⟩

end

section

variable {ι κ : Type} {kindsOf : ι → List TokenKind} {Arg : ι → Expr → Prop}
  {nameOf : κ → Option String} {valueOf : κ → List TokenKind} {Value : κ → Expr → Prop}

/-- The tokens of arguments without names and with names, each by itself. -/
def argumentPieces (kindsOf : ι → List TokenKind) (nameOf : κ → Option String)
    (valueOf : κ → List TokenKind) (args : List ι) (fields : List κ) : List (List TokenKind) :=
  args.map kindsOf ++ fields.map fun field => keywordKinds (nameOf field) (valueOf field)

/-- The argument has the name that the item has, and a value for it. -/
def IsField (nameOf : κ → Option String) (Value : κ → Expr → Prop) (field : κ)
    (arg : KeywordArg) : Prop :=
  arg.name = nameOf field ∧ Value field arg.value

/-- The arguments read so far, last first, are those of these items. -/
structure HasArguments (Arg : ι → Expr → Prop) (nameOf : κ → Option String)
    (Value : κ → Expr → Prop) (args : List ι) (fields : List κ) (read : Arguments) : Prop where
  positional : List.Forall₂ Arg args read.positional.reverse
  keywords : List.Forall₂ (IsField nameOf Value) fields read.keywords.reverse

theorem map_name_of_isField {fields : List κ} {keywords : List KeywordArg}
    (h : List.Forall₂ (IsField nameOf Value) fields keywords) :
    keywords.map (·.name) = fields.map nameOf := by
  induction h with
  | nil => rfl
  | cons same _ ih => rw [List.map_cons, List.map_cons, same.1, ih]

theorem HasArguments.names_eq_false {args : List ι} {fields : List κ} {read : Arguments}
    (holds : HasArguments Arg nameOf Value args fields read) {id : String}
    (fresh : id ∉ fields.filterMap nameOf) : read.names id = false := by
  rw [Arguments.names, List.any_eq_false]
  intro arg member same
  have listed : some id ∈ read.keywords.reverse.map (·.name) := by
    rw [← beq_iff_eq.1 same]
    exact List.mem_map_of_mem (List.mem_reverse.2 member)
  rw [map_name_of_isField holds.keywords] at listed
  obtain ⟨field, inside, named⟩ := List.mem_map.1 listed
  exact fresh (List.mem_filterMap.2 ⟨field, inside, named⟩)

section

variable {n : Nesting} {size : Nat}

/-- Arguments without names come first. -/
theorem adds_positional (free : n.limit = 0) {args : List ι}
    (isArg : ∀ item ∈ args, IsOperand hole (kindsOf item) (Arg item))
    (argFits : ∀ item ∈ args, (kindsOf item).length < size) :
    Adds n .rightParen (argument (within hole size)) (args.map kindsOf)
      (HasArguments Arg nameOf Value [] []) (HasArguments Arg nameOf Value args []) := by
  refine .of_forall (fun args => HasArguments Arg nameOf Value args []) [] args
    (fun item member => (isArg item member).opens_other rfl) ?_
  intro front item back split read holds last rest follows
  have member : item ∈ args := by rw [split]; simp
  have none : read.keywords = [] := by
    have empty := holds.keywords
    cases reversed : read.keywords.reverse with
    | nil => exact List.reverse_eq_nil_iff.1 reversed
    | cons k more =>
      rw [reversed] at empty
      cases empty
  refine (argument_of_operand (isArg item member) free (argFits item member) follows none).mono ?_
  rintro _ ⟨arg, rfl, same⟩
  refine ⟨?_, holds.keywords⟩
  rw [Arguments.addPositional, List.reverse_cons]
  exact List.rel_append holds.positional (.cons same .nil)

/-- Arguments with names follow. -/
theorem adds_named (free : n.limit = 0) {args : List ι} {fields : List κ}
    (isValue : ∀ field ∈ fields, IsOperand hole (valueOf field) (Value field))
    (distinct : (fields.filterMap nameOf).Nodup)
    (valueFits : ∀ field ∈ fields, (valueOf field).length < size) :
    Adds n .rightParen (argument (within hole size))
      (fields.map fun field => keywordKinds (nameOf field) (valueOf field))
      (HasArguments Arg nameOf Value args []) (HasArguments Arg nameOf Value args fields) := by
  refine .of_forall (HasArguments Arg nameOf Value args) [] fields (fun field _ => ?_) ?_
  · cases name : nameOf field <;> rfl
  · intro front field back split read holds last rest follows
    have member : field ∈ fields := by rw [split]; simp
    have ends : endsOperand last = true := by rcases follows with rfl | rfl <;> rfl
    have fresh : ∀ id ∈ nameOf field, read.names id = false := by
      intro id named
      apply holds.names_eq_false
      rw [split, List.filterMap_append, List.filterMap_cons, named, List.nodup_append] at distinct
      exact fun inside => distinct.2.2 id inside id List.mem_cons_self rfl
    refine (argument_of_keyword (isValue field member) free (valueFits field member) ends
      fresh).mono ?_
    rintro _ ⟨arg, rfl, same⟩
    refine ⟨holds.positional, ?_⟩
    rw [Arguments.addKeyword, List.reverse_cons]
    exact List.rel_append holds.keywords (.cons same .nil)

/-- The arguments between the brackets of a call, and the bracket behind them. -/
theorem arguments_of_operands (free : n.limit = 0) {args : List ι}
    {fields : List κ} (isArg : ∀ item ∈ args, IsOperand hole (kindsOf item) (Arg item))
    (isValue : ∀ field ∈ fields, IsOperand hole (valueOf field) (Value field))
    (distinct : (fields.filterMap nameOf).Nodup)
    (fits : ([TokenKind.op .comma].intercalate
      (argumentPieces kindsOf nameOf valueOf args fields)).length < size)
    (rest : List TokenKind) :
    Reads n (arguments (within hole size))
      ([TokenKind.op .comma].intercalate (argumentPieces kindsOf nameOf valueOf args fields) ++
        [.op .rightParen]) rest
      fun read => List.Forall₂ Arg args read.1 ∧
        List.Forall₂ (IsField nameOf Value) fields read.2 := by
  have lengths {kinds : List TokenKind}
      (member : kinds ∈ argumentPieces kindsOf nameOf valueOf args fields) :
      kinds.length < size :=
    Nat.lt_of_le_of_lt (length_le_intercalate member) fits
  have argFits : ∀ item ∈ args, (kindsOf item).length < size := fun item member =>
    lengths (List.mem_append_left _ (List.mem_map_of_mem member))
  have valueFits : ∀ field ∈ fields, (valueOf field).length < size := fun field member => by
    have := lengths (List.mem_append_right _ (List.mem_map_of_mem member))
    cases name : nameOf field <;> simp [keywordKinds, name] at this <;> omega
  have none : HasArguments Arg nameOf Value [] [] .empty := ⟨.nil, .nil⟩
  have named : Adds n .rightParen (argument (within hole size))
      (fields.map fun field => keywordKinds (nameOf field) (valueOf field))
      (HasArguments Arg nameOf Value args []) (HasArguments Arg nameOf Value args fields) :=
    adds_named free isValue distinct valueFits
  have items := ((adds_positional free isArg argFits).append named).addItems nofun rest none
  unfold arguments
  exact .bind items fun read holds => .bind_all (.expect_taken rfl) fun _ _ =>
    .pure ⟨holds.positional, holds.keywords⟩

end

/-- A call of what can be called, with arguments without names and with names, none of them
twice. -/
theorem IsCallee.call {callee : List TokenKind} (h : IsCallee hole callee P) {args : List ι}
    {fields : List κ} (isArg : ∀ item ∈ args, IsOperand hole (kindsOf item) (Arg item))
    (isValue : ∀ field ∈ fields, IsOperand hole (valueOf field) (Value field))
    (distinct : (fields.filterMap nameOf).Nodup) :
    IsCallee hole (callee ++ .op .leftParen :: ([TokenKind.op .comma].intercalate
        (argumentPieces kindsOf nameOf valueOf args fields) ++ [.op .rightParen]))
      fun e => ∃ f args' keywords span, e = .call f args' keywords span ∧ P f ∧
        List.Forall₂ Arg args args' ∧ List.Forall₂ (IsField nameOf Value) fields keywords := by
  refine ⟨?_, h.unnamed.append nofun, fun {n size start last more rest tail Q} free fits ahead ends
    later => ?_⟩
  · obtain ⟨first, here, starts⟩ := (Option.any_eq_true _ _).1 h.opens
    rw [List.head?_append_of_ne_nil _ fun none => by simp [none] at here, here]
    exact starts
  simp only [List.length_append, List.length_cons] at fits
  have called (f : Expr) (holds : P f) : Reads n (postfixed (within hole size) start f)
      (.op .leftParen :: ([TokenKind.op .comma].intercalate
        (argumentPieces kindsOf nameOf valueOf args fields) ++ [.op .rightParen])) (more ++ rest)
      fun call? => ∃ call, call? = some call ∧ ∃ f args' keywords span,
        call = .call f args' keywords span ∧ P f ∧ List.Forall₂ Arg args args' ∧
          List.Forall₂ (IsField nameOf Value) fields keywords := by
    unfold postfixed
    refine .bind_accept rfl
      (.bind_all (arguments_of_operands free isArg isValue distinct (by omega) _) ?_)
    rintro ⟨args', keywords⟩ ⟨positional, named⟩
    exact .bind_span fun span => .pure ⟨_, rfl, f, args', keywords, span, rfl, holds, positional,
      named⟩
  have looped (f : Expr) (holds : P f) := Reads.loop_more _ more (by simp) (called f holds) later
  rw [List.append_assoc]
  exact h.reads free (by omega) rfl (.inr rfl) looped

end

end ScoreScript.Script.Grammar
