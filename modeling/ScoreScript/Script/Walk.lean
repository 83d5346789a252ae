import ScoreScript.Script.Syntax

/-!
What occurs in a script, in the order in which a walk over its tree comes by. A node comes
before its parts. The use of a name follows it at once; that of any other expression comes
after its parts.
-/

namespace ScoreScript.Script

/-- A stop of the walk: a kind of syntax, or a call together with the expression called. -/
inductive Event where
  | kind (kind : NodeKind) (span : Span)
  | call (callee : Expr) (span : Span)

/-- A sequence of events that was put together from pieces. However long two of them are, it
takes one step to put them together. -/
inductive Trace where
  | nothing
  | stop (event : Event)
  | both (first second : Trace)

namespace Trace

instance : Append Trace := ⟨both⟩

def kind (kind : NodeKind) (span : Span) : Trace :=
  stop (.kind kind span)

def call (callee : Expr) (span : Span) : Trace :=
  stop (.call callee span)

/-- The events of a trace, followed by others. -/
def before (after : List Event) : Trace → List Event
  | nothing => after
  | stop event => event :: after
  | both first second => first.before (second.before after)

def toList (t : Trace) : List Event :=
  t.before []

theorem before_eq_append (after : List Event) (t : Trace) :
    t.before after = t.toList ++ after := by
  induction t generalizing after with
  | nothing => rfl
  | stop event => rfl
  | both first second first_ih second_ih =>
    simp only [toList, before] at first_ih second_ih ⊢
    rw [first_ih, second_ih after, first_ih (second.before []), List.append_assoc]

theorem toList_append (a b : Trace) : (a ++ b).toList = a.toList ++ b.toList :=
  before_eq_append b.toList a

end Trace

open Trace (kind call)

mutual

def Expr.events : Expr → Trace
  | .constant _ span => kind .constant span
  | .name _ use span => kind .name span ++ kind use.kind span
  | .tuple items use span => kind .tuple span ++ eventsAll items ++ kind use.kind span
  | .list items use span => kind .list span ++ eventsAll items ++ kind use.kind span
  | .set items span => kind .set span ++ eventsAll items
  | .dict entries span => kind .dict span ++ keyEvents entries ++ valueEvents entries
  | .call callee args keywords span =>
    kind .call span ++ call callee span ++
      callee.events ++ eventsAll args ++ keywordEvents keywords
  | .member owner _ use span =>
    kind .member span ++ owner.events ++ kind use.kind span
  | .subscript owner index use span =>
    kind .subscript span ++ owner.events ++ index.events ++ kind use.kind span
  | .slice lower upper step span =>
    kind .slice span ++ eventsOpt lower ++ eventsOpt upper ++ eventsOpt step
  | .starred value use span =>
    kind .starred span ++ value.events ++ kind use.kind span
  | .unary op operand span => kind .unaryOp span ++ kind op.kind span ++ operand.events
  | .binary left _ right span => kind .binOp span ++ left.events ++ right.events
  | .boolean _ operands span => kind .boolOp span ++ eventsAll operands
  | .compare left rest span => kind .compare span ++ left.events ++ comparisonEvents rest
  | .lambda params body span =>
    kind .lambda span ++ params.events span ++ body.events
  | .conditional test body other span =>
    kind .ifExp span ++ test.events ++ body.events ++ other.events
  | .named target value span => kind .namedExpr span ++ target.events ++ value.events
  | .listComp item generators span =>
    kind .listComp span ++ item.events ++ generatorEvents generators
  | .setComp item generators span =>
    kind .setComp span ++ item.events ++ generatorEvents generators
  | .dictComp key value generators span =>
    kind .dictComp span ++ key.events ++ value.events ++ generatorEvents generators
  | .generator item generators span =>
    kind .generatorExp span ++ item.events ++ generatorEvents generators
  | .joined parts span => kind .joinedStr span ++ eventsAll parts
  | .formatted value _ spec span =>
    kind .formattedValue span ++ value.events ++ eventsOpt spec
  | .await value span => kind .await span ++ value.events
  | .yield value span => kind .yield span ++ eventsOpt value
  | .yieldFrom value span => kind .yieldFrom span ++ value.events

def eventsAll : List Expr → Trace
  | [] => .nothing
  | e :: rest => e.events ++ eventsAll rest

def eventsOpt : Option Expr → Trace
  | none => .nothing
  | some e => e.events

/-- The keys of a dictionary come before all of its values. -/
def keyEvents : List DictEntry → Trace
  | [] => .nothing
  | .pair key _ :: rest => key.events ++ keyEvents rest
  | .unpack _ :: rest => keyEvents rest

def valueEvents : List DictEntry → Trace
  | [] => .nothing
  | .pair _ value :: rest => value.events ++ valueEvents rest
  | .unpack mapping :: rest => mapping.events ++ valueEvents rest

def keywordEvents : List KeywordArg → Trace
  | [] => .nothing
  | .mk _ value span :: rest => kind .keyword span ++ value.events ++ keywordEvents rest

def comparisonEvents : List Comparison → Trace
  | [] => .nothing
  | .mk _ operand :: rest => operand.events ++ comparisonEvents rest

def generatorEvents : List Comprehension → Trace
  | [] => .nothing
  | .mk target source conditions span :: rest =>
    kind .comprehension span ++
      target.events ++ source.events ++ eventsAll conditions ++ generatorEvents rest

def Parameters.events (span : Span) : Parameters → Trace
  | .mk args vararg nameOnly kwarg =>
    kind .arguments span ++
      paramEvents args ++ paramEventsOpt vararg ++ paramEvents nameOnly ++ paramEventsOpt kwarg

def Param.events : Param → Trace
  | .mk _ hint default span =>
    kind .arg span ++ eventsOpt hint ++ eventsOpt default

def paramEvents : List Param → Trace
  | [] => .nothing
  | param :: rest => param.events ++ paramEvents rest

def paramEventsOpt : Option Param → Trace
  | none => .nothing
  | some param => param.events

end

/-- A statement's list of imported names. -/
def aliasEvents : List Alias → Trace
  | [] => .nothing
  | name :: rest => kind .importName name.span ++ aliasEvents rest

def itemEvents : List WithItem → Trace
  | [] => .nothing
  | item :: rest =>
    kind .withItem item.span ++ item.context.events ++ eventsOpt item.target ++ itemEvents rest

mutual

def Stmt.events : Stmt → Trace
  | .expr value span => kind .exprStmt span ++ value.events
  | .assign targets value span => kind .assign span ++ eventsAll targets ++ value.events
  | .annAssign target hint value span =>
    kind .annAssign span ++ target.events ++ hint.events ++ eventsOpt value
  | .augAssign target _ value span => kind .augAssign span ++ target.events ++ value.events
  | .pass span => kind .pass span
  | .breakStmt span => kind .breakStmt span
  | .continueStmt span => kind .continueStmt span
  | .returnStmt value span => kind .returnStmt span ++ eventsOpt value
  | .delete targets span => kind .delete span ++ eventsAll targets
  | .globalStmt _ span => kind .globalStmt span
  | .nonlocalStmt _ span => kind .nonlocalStmt span
  | .assertStmt test message span =>
    kind .assertStmt span ++ test.events ++ eventsOpt message
  | .raise value cause span => kind .raise span ++ eventsOpt value ++ eventsOpt cause
  | .importStmt names span => kind .importStmt span ++ aliasEvents names
  | .importFrom _ names _ span => kind .importFrom span ++ aliasEvents names
  | .ifStmt test body other span =>
    kind .ifStmt span ++ test.events ++ bodyEvents body ++ bodyEvents other
  | .whileStmt test body other span =>
    kind .whileStmt span ++ test.events ++ bodyEvents body ++ bodyEvents other
  | .forStmt target source body other span =>
    kind .forStmt span ++
      target.events ++ source.events ++ bodyEvents body ++ bodyEvents other
  | .withStmt items body span => kind .withStmt span ++ itemEvents items ++ bodyEvents body
  | .functionDef _ params body decorators returns span =>
    kind .functionDef span ++
      eventsAll decorators ++ params.events span ++ eventsOpt returns ++ bodyEvents body
  | .classDef _ bases keywords body decorators span =>
    kind .classDef span ++
      eventsAll decorators ++ eventsAll bases ++ keywordEvents keywords ++ bodyEvents body
  | .tryStmt body handlers other final span =>
    kind .tryStmt span ++
      bodyEvents body ++ handlerEvents handlers ++ bodyEvents other ++ bodyEvents final

def bodyEvents : List Stmt → Trace
  | [] => .nothing
  | s :: rest => s.events ++ bodyEvents rest

def handlerEvents : List ExceptHandler → Trace
  | [] => .nothing
  | .mk type _ body span :: rest =>
    kind .exceptHandler span ++ eventsOpt type ++ bodyEvents body ++ handlerEvents rest

end

/-- Everything in a script, in the order of the walk. -/
def Module.events (m : Module) : List Event :=
  (kind .module m.span ++ bodyEvents m.body).toList

end ScoreScript.Script
