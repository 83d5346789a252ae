import ScoreScript.Proofs.Numbers.Statement
import ScoreScript.Proofs.Run.Hygiene

/-!
Integers do not wrap. The numbers of a script that is run have a place in 63 bits, and the only
operation on integers changes their sign, so every integer that a run comes to has its place between
two bounds that are each other's negatives. The integer with 64 bits that has no negative is not
among them. Main statement: `integers_never_wrap`.
-/

namespace ScoreScript

open Script (Expr KeywordArg Node Stmt Within WithItem)

/-! ### Values in range -/

/-- Each integer that the value consists of has a negative in 64 bits. -/
inductive Value.Ranged : Value → Prop where
  | none : Ranged .none
  | bool {b : Bool} : Ranged (.bool b)
  | int {n : Int} (above : -(twoTo 63 : Int) < n) (below : n < twoTo 63) : Ranged (.int n)
  | float {x : Float} : Ranged (.float x)
  | str {text : String} : Ranged (.str text)
  | bytes {bytes : List UInt8} : Ranged (.bytes bytes)
  | tuple {items : List Value} (all : ∀ v ∈ items, Ranged v) : Ranged (.tuple items)
  | map {entries : List (String × Value)} (all : ∀ e ∈ entries, Ranged e.2) : Ranged (.map entries)
  | bundle {args : Arguments} (positional : ∀ v ∈ args.positional, Ranged v)
    (named : ∀ e ∈ args.named, Ranged e.2) : Ranged (.bundle args)
  | element {tag : String} : Ranged (.element tag)
  | type {id : TypeId} : Ranged (.type id)
  | helper : Ranged .helper

theorem Value.Ranged.ne_least {v : Value} (ranged : v.Ranged) : v ≠ .int (-(twoTo 63 : Int)) := by
  rintro rfl
  cases ranged with
  | int above below => exact absurd above (Int.lt_irrefl _)

/-- Every name means a value in range. -/
def Session.Ranged (s : Session) : Prop :=
  ∀ name v, Assoc.get? s.bindings name = some v → v.Ranged

/-- No name that has an origin means a number. -/
theorem Session.Hygienic.ranged {c : Catalogue} {targets : List Expr} {s : Session}
    (clean : s.Hygienic c targets) : s.Ranged := by
  intro name v found
  cases clean name v found <;> constructor

namespace Run

open Script.Node (Small)

variable {kit : Kit} {s s' : Session}

/-! ### Expressions -/

theorem constantValue_ranged {span : Span} {value : Script.Constant} {v : Value}
    (small : Small (.expr (.constant value span)))
    (done : (constantValue span value).run s = (.ok v, s')) : v.Ranged := by
  cases value with
  | int n =>
    obtain ⟨nonneg, less⟩ : 0 ≤ n ∧ n < twoTo 63 := small _ (.self _)
    cases done
    exact .int (Int.lt_of_lt_of_le (by decide) nonneg) less
  | ellipsis => cases done
  | _ =>
    cases done
    constructor

/-- Changing the sign keeps to the range. -/
theorem negate_ranged {span : Span} {v w : Value} (ranged : v.Ranged)
    (done : (negate span v).run s = (.ok w, s')) : w.Ranged := by
  cases ranged with
  | int above below =>
    rw [negate, if_neg (Int.ne_of_gt above)] at done
    cases done
    exact .int (by omega) (by omega)
  | @bool b =>
    cases done
    cases b
    · exact .int (by decide) (by decide)
    · exact .int (by decide) (by decide)
  | float =>
    cases done
    exact .float
  | _ => cases done

theorem call_ranged {callee : Expr} {span : Span} {f v : Value} {args : Running Arguments}
    (given : ∀ found t, args.run s = (.ok found, t) →
      (∀ v ∈ found.positional, v.Ranged) ∧ ∀ e ∈ found.named, e.2.Ranged)
    (done : (call kit callee span f args).run s = (.ok v, s')) : v.Ranged := by
  cases f with
  | type id =>
    obtain ⟨found, t, -, done⟩ := ok_of_run_bind done
    obtain ⟨_, t', -, done⟩ := ok_of_run_bind done
    obtain ⟨type, t'', -, ⟨⟩⟩ := ok_of_run_bind done
    exact .element
  | helper =>
    obtain ⟨found, t, evaluated, ⟨⟩⟩ := ok_of_run_bind done
    exact .bundle (given found _ evaluated).1 (given found _ evaluated).2
  | _ => cases done

/-- Evaluating leaves the names as they were. -/
theorem ranged_of_evaluate {e : Expr} {v : Value} (names : s.Ranged)
    (done : (evaluate kit e).run s = (.ok v, s')) : s'.Ranged := by
  have same := ((evaluate_steady e).ok ⟨rfl, rfl⟩ done).1.bindings
  unfold Session.Ranged
  rwa [same]

theorem ranged_of_evaluateAll {items : List Expr} {vs : List Value} (names : s.Ranged)
    (done : (evaluateAll kit items).run s = (.ok vs, s')) : s'.Ranged := by
  have same := ((evaluateAll_steady items).ok ⟨rfl, rfl⟩ done).bindings
  unfold Session.Ranged
  rwa [same]

mutual

/-- Where names mean values in range and numbers are small, an expression comes to a value in
range. -/
theorem evaluate_ranged : (e : Expr) → Small (.expr e) → ∀ {s s' : Session} {v : Value},
    s.Ranged → (evaluate kit e).run s = (.ok v, s') → v.Ranged
  | .constant value span, small, s, s', v, names, done => by
    unfold evaluate at done
    exact constantValue_ranged small done
  | .name id use span, small, s, s', v, names, done => by
    unfold evaluate lookUp at done
    rw [run_bind_ok (run_get s)] at done
    cases found : Assoc.get? s.bindings id with
    | none =>
      rw [found] at done
      cases done
    | some w =>
      rw [found] at done
      cases done
      exact names id v found
  | .tuple items use span, small, s, s', v, names, done => by
    unfold evaluate at done
    obtain ⟨vs, t, all, ⟨⟩⟩ := ok_of_run_bind done
    exact .tuple (evaluateAll_ranged items
      (fun e member => small.part (List.mem_map_of_mem member)) names all)
  | .unary op operand span, small, s, s', v, names, done => by
    cases op with
    | minus =>
      unfold evaluate at done
      obtain ⟨w, t, evaluated, done⟩ := ok_of_run_bind done
      exact negate_ranged (evaluate_ranged operand (small.part List.mem_cons_self) names evaluated)
        done
    | _ =>
      unfold evaluate at done
      cases done
  | .call callee args keywords span, small, s, s', v, names, done => by
    unfold evaluate at done
    obtain ⟨f, t, called, done⟩ := ok_of_run_bind done
    obtain ⟨-, smallArgs, smallKeywords⟩ := Script.Node.small_call small
    have names := ranged_of_evaluate names called
    refine call_ranged (fun found u given => ?_) done
    obtain ⟨positional, u', first, given⟩ := ok_of_run_bind given
    obtain ⟨entries, u'', second, ⟨⟩⟩ := ok_of_run_bind given
    exact ⟨evaluateAll_ranged args smallArgs names first,
      evaluateNamed_ranged keywords smallKeywords (ranged_of_evaluateAll names first) second⟩
  | .list .., _, s, s', v, _, done | .set .., _, s, s', v, _, done | .dict .., _, s, s', v, _, done
  | .member .., _, s, s', v, _, done | .subscript .., _, s, s', v, _, done
  | .slice .., _, s, s', v, _, done | .starred .., _, s, s', v, _, done
  | .binary .., _, s, s', v, _, done | .boolean .., _, s, s', v, _, done
  | .compare .., _, s, s', v, _, done | .lambda .., _, s, s', v, _, done
  | .conditional .., _, s, s', v, _, done | .named .., _, s, s', v, _, done
  | .listComp .., _, s, s', v, _, done | .setComp .., _, s, s', v, _, done
  | .dictComp .., _, s, s', v, _, done | .generator .., _, s, s', v, _, done
  | .joined .., _, s, s', v, _, done | .formatted .., _, s, s', v, _, done
  | .await .., _, s, s', v, _, done | .yield .., _, s, s', v, _, done
  | .yieldFrom .., _, s, s', v, _, done => by
    unfold evaluate at done
    cases done

theorem evaluateAll_ranged : (items : List Expr) → (∀ e ∈ items, Small (.expr e)) →
    ∀ {s s' : Session} {vs : List Value}, s.Ranged →
      (evaluateAll kit items).run s = (.ok vs, s') → ∀ v ∈ vs, v.Ranged
  | [], _, s, s', vs, _, done => by
    unfold evaluateAll at done
    cases done
    exact List.forall_mem_nil _
  | e :: rest, small, s, s', vs, names, done => by
    unfold evaluateAll at done
    obtain ⟨v, t, first, done⟩ := ok_of_run_bind done
    obtain ⟨more, u, later, ⟨⟩⟩ := ok_of_run_bind done
    obtain ⟨here, there⟩ := List.forall_mem_cons.1 small
    exact List.forall_mem_cons.2 ⟨evaluate_ranged e here names first,
      evaluateAll_ranged rest there (ranged_of_evaluate names first) later⟩

theorem evaluateNamed_ranged : (keywords : List KeywordArg) →
    (∀ k ∈ keywords, Small (.keyword k)) → ∀ {s s' : Session} {entries : List (String × Value)},
      s.Ranged → (evaluateNamed kit keywords).run s = (.ok entries, s') →
        ∀ e ∈ entries, e.2.Ranged
  | [], _, s, s', entries, _, done => by
    unfold evaluateNamed at done
    cases done
    exact List.forall_mem_nil _
  | .mk none value span :: rest, _, s, s', entries, _, done => by
    unfold evaluateNamed at done
    cases done
  | .mk (some name) value span :: rest, small, s, s', entries, names, done => by
    unfold evaluateNamed at done
    obtain ⟨v, t, first, done⟩ := ok_of_run_bind done
    obtain ⟨more, u, later, ⟨⟩⟩ := ok_of_run_bind done
    obtain ⟨here, there⟩ := List.forall_mem_cons.1 small
    exact List.forall_mem_cons.2
      ⟨evaluate_ranged value (here.part List.mem_cons_self) names first,
        evaluateNamed_ranged rest there (ranged_of_evaluate names first) later⟩

end

/-! ### Points of a run -/

/-- All numbers in what a task is work on are small. -/
def Task.Small : Task → Prop
  | expr e => Node.Small (.expr e)
  | exprs list => ∀ e ∈ list, Node.Small (.expr e)
  | keywords list => ∀ k ∈ list, Node.Small (.keyword k)
  | item i => Node.Small (.item i)
  | items list => ∀ i ∈ list, Node.Small (.item i)
  | stmt st => Node.Small (.stmt st)
  | body list => ∀ st ∈ list, Node.Small (.stmt st)

/-- One step into a script comes to numbers that are there already. -/
theorem starts_small {p p' : Task × Session} (starts : Starts kit p p') (small : p.1.Small) :
    p'.1.Small := by
  have context {item : WithItem} (h : Small (.item item)) : Small (.expr item.context) :=
    h.part List.mem_cons_self
  cases starts with
  | tuple => exact List.forall_mem_map.1 (Script.Node.small_iff.1 small).2
  | operand | statement => exact Script.Node.Small.part small List.mem_cons_self
  | callee => exact (Script.Node.small_call small).1
  | args => exact (Script.Node.small_call small).2.1
  | named => exact (Script.Node.small_call small).2.2
  | firstExpr | firstItem | firstStmt => exact (List.forall_mem_cons.1 small).1
  | laterExprs | laterKeywords | laterItems | laterStmts => exact (List.forall_mem_cons.1 small).2
  | firstKeyword =>
    exact Script.Node.Small.part (List.forall_mem_cons.1 small).1 List.mem_cons_self
  | context => exact context small
  | itemCallee same => exact (Script.Node.small_call (same ▸ context small)).1
  | itemArgs same => exact (Script.Node.small_call (same ▸ context small)).2.1
  | itemNamed same => exact (Script.Node.small_call (same ▸ context small)).2.2
  | withItems => exact (Script.Node.small_withStmt small).1
  | withBody => exact (Script.Node.small_withStmt small).2

/-- All points of a run are work on small numbers, if it starts with such work. -/
theorem reaches_small {p p' : Task × Session} (reaches : Reaches kit p p') (small : p.1.Small) :
    p'.1.Small := by
  induction reaches with
  | refl => exact small
  | tail _ starts ih => exact starts_small starts ih

/-- At every point of a run, expressions come to values in range. -/
theorem ranged_of_reaches {limits : Limits} {text : String} {m : Script.Module}
    (read : Script.Module.ofText limits text = .ok m) (accepted : m.verdict.isAccepted = true)
    {registry : Registry} {e : Expr} {v : Value}
    (reaches : Reaches kit (.body m.body, ⟨.start kit.catalogue, .start registry⟩) (.expr e, s))
    (done : (evaluate kit e).run s = (.ok v, s')) : v.Ranged := by
  have here := reaches_small reaches (Script.Module.small_of_accepted read accepted)
  have names := (reaches_hygienic reaches (List.Subset.refl _) (start_hygienic _ _ registry)).2
  exact evaluate_ranged e here names.ranged done

/-- Integers do not wrap. The reader of scripts takes a numeral of any of its bases for its value if
that has a place in 63 bits, and otherwise refuses the numeral where it begins. So wherever a run
evaluates an expression, there are no integers in the value but those between the largest and its
negative, and a minus never stands before the one integer of 64 bits that has no negative. -/
theorem integers_never_wrap :
    (∀ (base n : Nat) (text : String) (rest : List UInt8),
      Script.IsNumeral base text.toList n → Cursor.Stops Script.isNumberByte rest →
      ∃ b more, utf8 text = b :: more ∧ Script.Layout.isTokenStart b = true ∧
        ∀ p, Script.Layout.readToken ⟨utf8 text ++ rest, p⟩ b =
          if n < twoTo 63 then .ok (.int n, ⟨rest, p.after (utf8 text)⟩)
          else .error (.point (.lexical (.number text)) p)) ∧
    ∀ (kit : Kit) (registry : Registry) (limits : Limits) (text : String) (m : Script.Module),
      Script.Module.ofText limits text = .ok m → m.verdict.isAccepted = true →
      ∀ e s, Reaches kit (.body m.body, ⟨.start kit.catalogue, .start registry⟩) (.expr e, s) →
        (∀ v s', (evaluate kit e).run s = (.ok v, s') → v.Ranged) ∧
        ∀ operand span, e = .unary .minus operand span →
          ∀ v s', (evaluate kit operand).run s = (.ok v, s') → v ≠ .int (-(twoTo 63 : Int)) := by
  refine ⟨fun base n text rest => Script.Layout.readToken_numeral, ?_⟩
  intro kit registry limits text m read accepted e s reaches
  refine ⟨fun v s' => ranged_of_reaches read accepted reaches, ?_⟩
  rintro operand span rfl v s' done
  exact (ranged_of_reaches read accepted (reaches.tail .operand) done).ne_least

/-- `-(-True)` -/
def isTwiceNegated : List Stmt → Bool
  | [.expr (.unary .minus (.unary .minus (.constant (.bool true) _) _) _) _] => true
  | _ => false

theorem exists_of_isTwiceNegated {body : List Stmt} (shape : isTwiceNegated body = true) :
    ∃ truth inner outer whole, body =
      [.expr (.unary .minus (.unary .minus (.constant (.bool true) truth) inner) outer) whole] := by
  rw [isTwiceNegated.eq_def] at shape
  split at shape
  · exact ⟨_, _, _, _, rfl⟩
  · cases shape

/-- `0x1_F` is 31, nothing of 64 bits is a number without a sign, and a truth value with two signs
before it is one. -/
theorem integers_never_wrap_signs :
    (∃ b, Script.Layout.readToken ⟨utf8 "0x1_F" ++ [0x0A], .start⟩ b =
      .ok (.int 31, ⟨[0x0A], Pos.start.after (utf8 "0x1_F")⟩)) ∧
    (∃ b, Script.Layout.readToken ⟨utf8 "9223372036854775808", .start⟩ b =
      .error (.point (.lexical (.number "9223372036854775808")) .start)) ∧
    ∃ m e s s', Script.Module.ofText Script.defaultLimits "-(-True)\n" = .ok m ∧
      m.verdict.isAccepted = true ∧
      Reaches ⟨noteCatalogue, true⟩
        (.body m.body, ⟨.start noteCatalogue, .start (.ofSchema none)⟩) (.expr e, s) ∧
      (evaluate ⟨noteCatalogue, true⟩ e).run s = (.ok (.int 1), s') ∧ Value.Ranged (.int 1) ∧
      Value.int (-1) ≠ .int (-(twoTo 63 : Int)) := by
  obtain ⟨numerals, runs⟩ := integers_never_wrap
  refine ⟨?_, ?_, ?_⟩
  · have numeral : Script.IsNumeral 16 "0x1_F".toList 31 :=
      .lettered (by decide) ⟨by decide, [1, 15], by decide, by decide, by decide⟩
    obtain ⟨b, more, -, -, reads⟩ := numerals 16 31 "0x1_F" [0x0A] numeral (Cursor.stops_cons rfl)
    exact ⟨b, reads .start⟩
  · have numeral : Script.IsNumeral 10 "9223372036854775808".toList (twoTo 63) :=
      .decimal (by decide) ⟨by decide, [9, 2, 2, 3, 3, 7, 2, 0, 3, 6, 8, 5, 4, 7, 7, 5, 8, 0, 8],
        by decide, by decide, by decide⟩
    obtain ⟨b, more, -, -, reads⟩ := numerals 10 (twoTo 63) _ [] numeral nofun
    rw [List.append_nil] at reads
    exact ⟨b, reads .start⟩
  · have parses : (Script.Module.ofText Script.defaultLimits "-(-True)\n").map (fun m =>
        (m.verdict.isAccepted, isTwiceNegated m.body)) = .ok (true, true) := by
      decide +kernel
    obtain ⟨m, read, found⟩ := ok_of_map parses
    obtain ⟨accepted, shape⟩ := Prod.mk.inj found
    obtain ⟨truth, inner, outer, whole, body⟩ := exists_of_isTwiceNegated shape
    let e : Expr := .unary .minus (.unary .minus (.constant (.bool true) truth) inner) outer
    let start : Session := ⟨.start noteCatalogue, .start (.ofSchema none)⟩
    have reached : Reaches ⟨noteCatalogue, true⟩ (.body m.body, start) (.expr e, start) := by
      rw [body]
      exact (Relation.ReflTransGen.single .firstStmt).tail .statement
    have done : (evaluate ⟨noteCatalogue, true⟩ e).run start = (.ok (.int 1), start) := rfl
    obtain ⟨ranged, negated⟩ := runs _ _ _ _ m read accepted e start reached
    exact ⟨m, e, start, start, read, accepted, reached, done, ranged _ _ done,
      negated _ _ rfl (.int (-1)) start rfl⟩

end Run

end ScoreScript
