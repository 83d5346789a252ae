import Mathlib.Algebra.BigOperators.Ring.List
import Mathlib.Algebra.Ring.Nat
import ScoreScript.Proofs.Arguments.Named

/-!
The recursion of constructions. To construct an element is to give its arguments to fields one by
one; what a child slot gets is constructed in the same way first, from the arguments that the value
stands for. Nothing limits how often that happens, and a plain value does not get any smaller on the
way, but it comes to an end, unless types hand such a value on in a circle: each value among the
arguments, however deep, starts no more constructions than the catalogue has types, and one more.
Main statement: `constructs_iff_no_circle`.
-/

namespace ScoreScript

namespace Draft

/-- What giving a value to a field comes to: a changed draft, or a child that is to be constructed
first, of a type and from arguments. -/
inductive Step where
  | changed (d : Draft)
  | child (slot : TypeId) (args : Arguments)

/-- Begin an element: an empty draft, and the values for its fields. -/
def begin (c : Catalogue) (span : Span) (id : TypeId) (args : Arguments) :
    Except Error (Draft × List (String × Value)) :=
  (start c span id args.positional.length (Assoc.keys args.named)).map fun d =>
    (d, d.type.byName args.positional ++ args.named)

/-- Give a value to a field. -/
def take (span : Span) (name : String) (v : Value) (d : Draft) : Except Error Step :=
  if v.isNone then .ok (.changed d)
  else
    match d.type.field? name with
    | none => .error ⟨.usage (.unknownField d.type.name name), span⟩
    | some .text => .ok (.changed (d.setText v.display))
    | some (.attr name _) => .ok (.changed (d.setAttribute name v.display))
    | some (.child slot) =>
      match v with
      | .element _ => .error ⟨.usage (.prebuiltChild d.type.name name), span⟩
      | _ => .ok (.child slot v.passed)

end Draft

mutual

/-- A construction ends: from a log, with an outcome and another log, after so many constructions,
itself included. -/
inductive Constructs (c : Catalogue) (span : Span) :
    TypeId → Arguments → Log → Except Error Element × Log → Nat → Prop
  | refused {id : TypeId} {args : Arguments} {log : Log} {e : Error}
    (failed : Draft.begin c span id args = .error e) :
    Constructs c span id args log (.error e, log) 1
  | begun {id : TypeId} {args : Arguments} {log log' : Log} {d : Draft}
    {values : List (String × Value)} {result : Except Error Draft} {calls : Nat}
    (begins : Draft.begin c span id args = .ok (d, values))
    (gives : Gives c span values d log (result, log') calls) :
    Constructs c span id args log (result.map (·.element), log') (calls + 1)

/-- So does the giving of values to the fields of a draft, one after the other. -/
inductive Gives (c : Catalogue) (span : Span) :
    List (String × Value) → Draft → Log → Except Error Draft × Log → Nat → Prop
  | done {d : Draft} {log : Log} : Gives c span [] d log (.ok d, log) 0
  | refused {name : String} {v : Value} {rest : List (String × Value)} {d : Draft} {log : Log}
    {e : Error} (failed : d.take span name v = .error e) :
    Gives c span ((name, v) :: rest) d log (.error e, log) 0
  | changed {name : String} {v : Value} {rest : List (String × Value)} {d d' : Draft} {log : Log}
    {out : Except Error Draft × Log} {calls : Nat} (takes : d.take span name v = .ok (.changed d'))
    (further : Gives c span rest d' log out calls) :
    Gives c span ((name, v) :: rest) d log out calls
  | failed {name : String} {v : Value} {rest : List (String × Value)} {d : Draft} {log log' : Log}
    {slot : TypeId} {args : Arguments} {e : Error} {calls : Nat}
    (takes : d.take span name v = .ok (.child slot args))
    (constructs : Constructs c span slot args log (.error e, log') calls) :
    Gives c span ((name, v) :: rest) d log (.error e, log') calls
  | attached {name : String} {v : Value} {rest : List (String × Value)} {d : Draft}
    {log log' : Log} {slot : TypeId} {args : Arguments} {child : Element}
    {out : Except Error Draft × Log} {calls more : Nat}
    (takes : d.take span name v = .ok (.child slot args))
    (constructs : Constructs c span slot args log (.ok child, log') calls)
    (further : Gives c span rest (d.attach span child log').1 (d.attach span child log').2 out
      more) :
    Gives c span ((name, v) :: rest) d log out (calls + more)

end

mutual

/-- How many values there are in a value, itself included. -/
def Value.weight : Value → Nat
  | .bundle ⟨positional, named⟩ => weightAll positional + weightNamed named + 1
  | .tuple items => weightAll items + 1
  | .map entries => weightNamed entries + 1
  | _ => 1

def weightAll : List Value → Nat
  | [] => 0
  | v :: rest => v.weight + weightAll rest

def weightNamed : List (String × Value) → Nat
  | [] => 0
  | (_, v) :: rest => v.weight + weightNamed rest

end

/-- How many values there are among arguments, counting the arguments as one. -/
def Arguments.weight (args : Arguments) : Nat :=
  (Value.bundle args).weight

variable {c : Catalogue} {span : Span}

/-! ### What ends comes to what is made -/

/-- A child is constructed of a value that something is made of, if the field is a child slot. -/
theorem take_eq_child_iff {d : Draft} {name : String} {v : Value} {slot : TypeId}
    {args : Arguments} :
    d.take span name v = .ok (.child slot args) ↔
      v.IsMade ∧ d.type.field? name = some (.child slot) ∧ args = v.passed := by
  constructor
  · intro takes
    unfold Draft.take at takes
    split at takes
    · cases takes
    · rename_i given
      split at takes
      · cases takes
      · cases takes
      · cases takes
      · rename_i slot' found
        split at takes
        · cases takes
        · rename_i other
          cases takes
          exact ⟨⟨Bool.eq_false_iff.2 given, other⟩, found, rfl⟩
  · rintro ⟨made, child, rfl⟩
    rw [Draft.take, made.1, child]
    simp only [Bool.false_eq_true, if_false]
    cases v with
    | element tag => exact absurd rfl (made.2 tag)
    | _ => rfl

theorem begin_eq_ok {id : TypeId} {args : Arguments} {begun : Draft × List (String × Value)}
    (begins : Draft.begin c span id args = .ok begun) :
    ∃ d, Draft.start c span id args.positional.length (Assoc.keys args.named) = .ok d ∧
      (d, d.type.byName args.positional ++ args.named) = begun := by
  rw [Draft.begin] at begins
  cases started : Draft.start c span id args.positional.length (Assoc.keys args.named) with
  | error e =>
    rw [started] at begins
    cases begins
  | ok d =>
    rw [started] at begins
    exact ⟨d, rfl, Except.ok.inj begins⟩

/-- A construction gives its arguments to fields by name. -/
theorem construct_begin (id : TypeId) (args : Arguments) :
    construct c span id args = liftM (Draft.begin c span id args) >>= fun begun =>
      giveNamed c span begun.2 begun.1 >>= fun d => return d.element := by
  obtain ⟨positional, named⟩ := args
  rw [construct, Value.toElement, Draft.begin]
  cases Draft.start c span id positional.length (Assoc.keys named) with
  | error e => rfl
  | ok d =>
    have inTurn : giveInTurn c span positional d.type.fields d =
        giveNamed c span (d.type.byName positional) d := giveInTurn_eq ..
    change (giveInTurn c span positional d.type.fields d >>= fun d =>
        giveNamed c span named d >>= fun d => return d.element) =
      (giveNamed c span (d.type.byName positional ++ named) d >>= fun d => return d.element)
    rw [inTurn, giveNamed_append, bind_assoc]

/-- A value changes the draft, or the child is constructed that it stands for. -/
theorem give_take (d : Draft) (name : String) (v : Value) :
    d.give span name v (fun slot => v.toElement c span slot) =
      match d.take span name v with
      | .error e => throw e
      | .ok (.changed d') => return d'
      | .ok (.child slot args) =>
        construct c span slot args >>= fun child => d.attach span child := by
  by_cases absent : v.isNone
  · simp only [Draft.give, Draft.take, if_pos absent]
  · cases found : d.type.field? name with
    | none => simp only [Draft.give, Draft.take, if_neg absent, found]
    | some field =>
      cases field with
      | text => simp only [Draft.give, Draft.take, if_neg absent, found]
      | attr key ns => simp only [Draft.give, Draft.take, if_neg absent, found]
      | child slot =>
        by_cases prebuilt : ∃ tag, v = .element tag
        · obtain ⟨tag, rfl⟩ := prebuilt
          simp only [Draft.give, Draft.take, if_neg absent, found]
        · have made : v.IsMade := ⟨Bool.eq_false_iff.2 absent, not_exists.1 prebuilt⟩
          rw [give_child made found, toElement_passed made,
            take_eq_child_iff.2 ⟨made, found, rfl⟩]

/-- A draft that is changed is one of the same type. -/
theorem type_of_take {d d' : Draft} {name : String} {v : Value}
    (takes : d.take span name v = .ok (.changed d')) : d'.type = d.type := by
  unfold Draft.take at takes
  split at takes
  · cases takes
    rfl
  · split at takes
    · cases takes
    · cases takes
      rfl
    · cases takes
      rfl
    · split at takes <;> cases takes

mutual

/-- A construction that ends comes to what `construct` makes. -/
theorem Constructs.eq : {id : TypeId} → {args : Arguments} → {log : Log} →
    {out : Except Error Element × Log} → {calls : Nat} →
    Constructs c span id args log out calls → out = (construct c span id args).run log
  | _, _, _, _, _, .refused failed => by
    rw [construct_begin, failed]
    rfl
  | _, _, _, _, _, @Constructs.begun _ _ _ _ log _ d values result _ begins gives => by
    have given := gives.eq
    rw [construct_begin, begins]
    change _ = (giveNamed c span values d >>= fun d => return d.element).run log
    rw [run_bind, ← given]
    cases result <;> rfl

theorem Gives.eq : {values : List (String × Value)} → {d : Draft} → {log : Log} →
    {out : Except Error Draft × Log} → {calls : Nat} →
    Gives c span values d log out calls → out = (giveNamed c span values d).run log
  | _, _, _, _, _, .done => rfl
  | _, _, _, _, _, .refused failed => by
    rw [giveNamed, give_take, failed]
    rfl
  | _, _, _, _, _, .changed takes further => by
    rw [giveNamed, give_take, takes]
    exact further.eq
  | _, _, _, _, _, .failed takes constructs => by
    rw [giveNamed, give_take, takes]
    exact (run_bind_error (run_bind_error constructs.eq.symm _) _).symm
  | _, _, _, _, _, .attached takes constructs further => by
    rw [giveNamed, give_take, takes]
    exact further.eq.trans (run_bind_ok (run_bind_ok constructs.eq.symm _) _).symm

end

/-! ### Weights -/

theorem weight_pos (v : Value) : 0 < v.weight := by
  cases v with
  | bundle args =>
    obtain ⟨positional, named⟩ := args
    exact Nat.succ_pos _
  | _ => exact Nat.succ_pos _

theorem weightNamed_eq (entries : List (String × Value)) :
    weightNamed entries = (entries.map fun entry => entry.2.weight).sum := by
  induction entries with
  | nil => rfl
  | cons entry rest ih => rw [weightNamed, ih, List.map_cons, List.sum_cons]

/-- Values that have no field are left out. -/
theorem weightNamed_zip_le (names : List String) (values : List Value) :
    weightNamed (names.zip values) ≤ weightAll values := by
  induction values generalizing names with
  | nil => rw [List.zip_nil_right, weightNamed, weightAll]
  | cons v rest ih =>
    cases names with
    | nil => exact Nat.zero_le _
    | cons name names => exact Nat.add_le_add_left (ih names) _

/-- The values for the fields of a type weigh no more than the arguments. -/
theorem weightNamed_byName_le (type : ElementType) (args : Arguments) :
    weightNamed (type.byName args.positional ++ args.named) + 1 ≤ args.weight := by
  obtain ⟨positional, named⟩ := args
  have first : weightNamed (type.byName positional) ≤ weightAll positional :=
    weightNamed_zip_le _ _
  have both : weightNamed (type.byName positional ++ named) =
      weightNamed (type.byName positional) + weightNamed named := by
    rw [weightNamed_eq, weightNamed_eq, weightNamed_eq, List.map_append, List.sum_append]
  rw [Arguments.weight, Value.weight, both]
  exact Nat.succ_le_succ (Nat.add_le_add_right first _)

theorem weight_le_of_mem {entries : List (String × Value)} {entry : String × Value}
    (member : entry ∈ entries) : entry.2.weight ≤ weightNamed entries := by
  induction entries with
  | nil => cases member
  | cons first rest ih =>
    rw [weightNamed]
    rcases List.mem_cons.1 member with rfl | later
    · exact Nat.le_add_right _ _
    · exact Nat.le_add_left_of_le (ih later)

/-- What a value stands for weighs as much as the value, unless that is its only argument. -/
theorem passed_cases (v : Value) :
    v.passed = ⟨[v], []⟩ ∧ v.weight = 1 ∨ v.passed.weight = v.weight := by
  cases v with
  | bundle args => exact .inr rfl
  | tuple items =>
    right
    rw [Value.passed, Arguments.weight, Value.weight, Value.weight, weightNamed, Nat.add_zero]
  | map entries =>
    right
    rw [Value.passed, Arguments.weight, Value.weight, Value.weight, weightAll, Nat.zero_add]
  | _ => exact .inl ⟨rfl, rfl⟩

/-! ### Constructions end -/

/-- Giving values ends if each child ends that is constructed for one of them. -/
theorem exists_gives {values : List (String × Value)} (bound : Value → Nat) {d : Draft}
    (each : ∀ entry ∈ values, entry.2.IsMade → ∀ slot,
      d.type.field? entry.1 = some (.child slot) → ∀ log,
      ∃ out, ∃ calls ≤ bound entry.2, Constructs c span slot entry.2.passed log out calls)
    (log : Log) :
    ∃ out, ∃ calls ≤ (values.map fun entry => bound entry.2).sum,
      Gives c span values d log out calls := by
  induction values generalizing d log with
  | nil => exact ⟨_, 0, Nat.le_refl 0, .done⟩
  | cons entry rest ih =>
    obtain ⟨name, v⟩ := entry
    obtain ⟨here, later⟩ := List.forall_mem_cons.1 each
    rw [List.map_cons, List.sum_cons]
    cases takes : d.take span name v with
    | error e => exact ⟨_, 0, Nat.zero_le _, .refused takes⟩
    | ok step =>
      cases step with
      | changed d' =>
        rw [← type_of_take takes] at later
        obtain ⟨out, calls, few, gives⟩ := ih later log
        exact ⟨out, calls, Nat.le_add_left_of_le few, .changed takes gives⟩
      | child slot args =>
        obtain ⟨made, child, rfl⟩ := take_eq_child_iff.1 takes
        obtain ⟨⟨result, log'⟩, calls, few, constructs⟩ := here made slot child log
        cases result with
        | error e => exact ⟨_, calls, Nat.le_add_right_of_le few, .failed takes constructs⟩
        | ok element =>
          obtain ⟨out, more, few', gives⟩ := ih (d := (d.attach span element log').1) later
            (d.attach span element log').2
          exact ⟨out, _, Nat.add_le_add few few', .attached takes constructs gives⟩

/-- So does a construction if each child ends that is constructed for one of its arguments. -/
theorem exists_constructs {id : TypeId} {args : Arguments} (bound : Value → Nat) {total : Nat}
    (each : ∀ type, c.get? id = some type →
      ∀ entry ∈ type.byName args.positional ++ args.named, entry.2.IsMade → ∀ slot,
        type.field? entry.1 = some (.child slot) → ∀ log,
        ∃ out, ∃ calls ≤ bound entry.2, Constructs c span slot entry.2.passed log out calls)
    (some : 0 < total) (most : ∀ type : ElementType,
      ((type.byName args.positional ++ args.named).map fun entry => bound entry.2).sum < total)
    (log : Log) :
    ∃ out, ∃ calls ≤ total, Constructs c span id args log out calls := by
  cases begins : Draft.begin c span id args with
  | error e => exact ⟨_, 1, some, .refused begins⟩
  | ok begun =>
    obtain ⟨d, started, rfl⟩ := begin_eq_ok begins
    obtain ⟨out, calls, few, gives⟩ :=
      exists_gives bound (each d.type (Plan.start_eq_ok started).1) log
    exact ⟨_, calls + 1, Nat.lt_of_le_of_lt few (most d.type), .begun begins gives⟩

/-- A plain value is handed on as far as its chain goes. -/
theorem exists_constructs_plain {v : Value} (plain : v.passed = ⟨[v], []⟩) {n : Nat} {id : TypeId}
    (ends : c.handed? n id = none) (log : Log) :
    ∃ out, ∃ calls ≤ n, Constructs c span id ⟨[v], []⟩ log out calls := by
  induction n generalizing id log with
  | zero => cases ends
  | succ n ih =>
    have only (type : ElementType) : type.byName [v] = [] ∨ ∃ name field more,
        type.fields = (name, field) :: more ∧ type.byName [v] = [(name, v)] := by
      cases fields : type.fields with
      | nil => exact .inl (by rw [ElementType.byName, fields]; rfl)
      | cons first more =>
        exact .inr ⟨first.1, first.2, more, rfl, ElementType.byName_single fields v⟩
    refine exists_constructs (fun _ => n) (fun type known entry member made slot child log => ?_)
      (Nat.succ_pos n) (fun type => ?_) log
    · rw [List.append_nil] at member
      rcases only type with none | ⟨name, field, more, fields, first⟩
      · rw [none] at member
        cases member
      · rw [first] at member
        obtain rfl := List.mem_singleton.1 member
        rw [ElementType.field?_first fields] at child
        cases child
        have hands : c.HandsOn id slot :=
          Catalogue.handsOn_iff.2 ⟨type, name, more, known, fields⟩
        rw [plain]
        exact ih (Catalogue.handed?_succ_of_handsOn hands n ▸ ends) log
    · rw [List.append_nil]
      rcases only type with none | ⟨name, field, more, fields, first⟩
      · rw [none]
        exact Nat.succ_pos n
      · rw [first]
        exact Nat.lt_succ_self n

/-- Where every chain ends, a child is made of each value in the end. -/
theorem exists_constructs_passed (ends : ∀ id, c.handed? (c.size + 1) id = none) {v : Value}
    {id : TypeId} (log : Log) :
    ∃ out, ∃ calls ≤ v.weight * (c.size + 1), Constructs c span id v.passed log out calls := by
  induction weight : v.weight using Nat.strongRecOn generalizing v id log with
  | _ n ih =>
    rcases passed_cases v with ⟨plain, one⟩ | whole
    · rw [plain, ← weight, one, Nat.one_mul]
      exact exists_constructs_plain plain (ends id) log
    · have lighter (type : ElementType) :
          weightNamed (type.byName v.passed.positional ++ v.passed.named) < n :=
        Nat.lt_of_lt_of_le (weightNamed_byName_le type v.passed) (whole.trans weight).le
      refine exists_constructs (fun v => v.weight * (c.size + 1))
        (fun type _ entry member _ slot _ log => ?_)
        (Nat.mul_pos (weight ▸ weight_pos v) (Nat.succ_pos _)) (fun type => ?_) log
      · exact ih entry.2.weight ((weight_le_of_mem member).trans_lt (lighter type)) log rfl
      · rw [List.sum_map_mul_right, ← weightNamed_eq]
        exact Nat.mul_lt_mul_of_pos_right (lighter type) (Nat.succ_pos _)

/-- What is given to a type that hands values on without end is not constructed. -/
theorem not_constructs_of_endless {v : Value} (made : v.IsMade) (plain : v.passed = ⟨[v], []⟩)
    {id : TypeId} (endless : c.Endless id) {log : Log} {out : Except Error Element × Log}
    {calls : Nat} : ¬Constructs c span id ⟨[v], []⟩ log out calls := by
  intro constructs
  induction calls using Nat.strongRecOn generalizing id log out with
  | _ calls ih =>
    obtain ⟨slot, hands, further⟩ := endless.exists_handsOn
    obtain ⟨type, name, more, known, fields⟩ := Catalogue.handsOn_iff.1 hands
    have begins : Draft.begin c span id ⟨[v], []⟩ =
        .ok (⟨type, .empty type.tag, []⟩, [(name, v)]) := by
      have started : Draft.start c span id 1 [] = .ok ⟨type, .empty type.tag, []⟩ :=
        start_of_fields known fields
      rw [Draft.begin, Assoc.keys, List.map_nil, List.length_singleton, started]
      simp only [Except.map, ElementType.byName_single fields v, List.append_nil]
    have takes : (⟨type, .empty type.tag, []⟩ : Draft).take span name v =
        .ok (.child slot ⟨[v], []⟩) :=
      take_eq_child_iff.2 ⟨made, ElementType.field?_first fields, plain.symm⟩
    cases constructs with
    | refused failed =>
      rw [begins] at failed
      cases failed
    | begun begins' gives =>
      rw [begins] at begins'
      cases begins'
      cases gives with
      | refused failed =>
        rw [takes] at failed
        cases failed
      | changed takes' _ =>
        rw [takes] at takes'
        cases takes'
      | failed takes' constructs =>
        rw [takes] at takes'
        cases takes'
        exact ih _ (Nat.lt_succ_self _) further constructs
      | attached takes' constructs _ =>
        rw [takes] at takes'
        cases takes'
        exact ih _ (Nat.lt_succ_of_le (Nat.le_add_right _ _)) further constructs

/-- Constructions end, whatever their arguments are and whatever was logged before, exactly if no
type hands its first value on to itself over the first fields of other types. Then each value among
the arguments starts no more of them than there are types, and one more. -/
theorem constructs_iff_no_circle (c : Catalogue) :
    (∀ id, ¬Relation.TransGen c.HandsOn id id) ↔
    ∀ (span : Span) (id : TypeId) (args : Arguments) (log : Log),
      ∃ out, ∃ calls ≤ args.weight * (c.size + 1), Constructs c span id args log out calls ∧
        out = (construct c span id args).run log := by
  rw [← not_exists, Catalogue.exists_circle_iff]
  constructor
  · intro noneEndless span id args log
    have ends (id : TypeId) : c.handed? (c.size + 1) id = none :=
      (c.ends_or_endless id).resolve_right fun endless => noneEndless ⟨id, endless⟩
    obtain ⟨out, calls, few, constructs⟩ :=
      exists_constructs_passed (v := .bundle args) ends log
    exact ⟨out, calls, few, constructs, constructs.eq⟩
  · rintro ends ⟨id, endless⟩
    have made : (Value.int 0).IsMade := ⟨rfl, nofun⟩
    obtain ⟨out, calls, -, constructs, -⟩ := ends .nowhere id ⟨[.int 0], []⟩ default
    exact not_constructs_of_endless made rfl endless constructs

end ScoreScript
