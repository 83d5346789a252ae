import ScoreScript.Proofs.Arguments.Chain
import ScoreScript.Proofs.Catalogue.Closed
import ScoreScript.Proofs.Ledger.Forms

/-!
Ways to write the arguments of a construction. Positional arguments are arguments by name, in the
order in which the fields are declared, and a value for a child stands for arguments of its own. To
write some arguments the other way, at any depth, changes neither what a construction comes to nor
what it logs. Main statement: `create_alike`.
-/

namespace ScoreScript

/-- The arguments that a value stands for where a child is made of it. -/
def Value.passed : Value → Arguments
  | .bundle args => args
  | .tuple items => ⟨items, []⟩
  | .map entries => ⟨[], entries⟩
  | v => ⟨[v], []⟩

/-- Something is made of the value: it is not absent, and no element that was made before. -/
def Value.IsMade (v : Value) : Prop :=
  v.isNone = false ∧ ∀ tag, v ≠ .element tag

/-- Values under the names of the fields that they are for as positional arguments. -/
def ElementType.byName (type : ElementType) (positional : List Value) : List (String × Value) :=
  (Assoc.keys type.fields).zip positional

/-- Two values stand for the same child of a type: where one of them stands for arguments, gives
them by position or holds a value for a child, the other may do it in another way. -/
inductive Value.Alike (c : Catalogue) : TypeId → Value → Value → Prop
  | refl {id : TypeId} {v : Value} : Alike c id v v
  | symm {id : TypeId} {v w : Value} (same : Alike c id v w) : Alike c id w v
  | trans {id : TypeId} {u v w : Value} (first : Alike c id u v) (second : Alike c id v w) :
    Alike c id u w
  /-- A value is the bundle of the arguments that it stands for. -/
  | bundled {id : TypeId} {v : Value} (made : v.IsMade) : Alike c id v (.bundle v.passed)
  /-- Positional arguments are arguments for the first fields. -/
  | byName {id : TypeId} {type : ElementType} {positional : List Value}
    {named : List (String × Value)} (known : c.get? id = some type)
    (few : positional.length ≤ type.fields.length) :
    Alike c id (.bundle ⟨positional, named⟩) (.bundle ⟨[], type.byName positional ++ named⟩)
  /-- What holds of a value for a child holds of the arguments it is among. -/
  | inside {id slot : TypeId} {type : ElementType} {field : String} {v w : Value}
    {before after : List (String × Value)} (known : c.get? id = some type)
    (child : type.field? field = some (.child slot)) (same : Alike c slot v w) :
    Alike c id (.bundle ⟨[], before ++ (field, v) :: after⟩)
      (.bundle ⟨[], before ++ (field, w) :: after⟩)

/-! ### Names that come twice -/

theorem firstRepeated?_congr {names : List String} {bound bound' : List String}
    (same : ∀ name, name ∈ bound ↔ name ∈ bound') :
    firstRepeated? bound names = firstRepeated? bound' names := by
  induction names generalizing bound bound' with
  | nil => rfl
  | cons name rest ih =>
    have here : bound.contains name = bound'.contains name :=
      Bool.eq_iff_iff.2 (by simpa using same name)
    rw [firstRepeated?, firstRepeated?, here]
    split
    · rfl
    · apply ih
      intro other
      rw [List.mem_cons, List.mem_cons, same other]

/-- New names are bound before the rest is looked at. -/
theorem firstRepeated?_skip {names : List String} (distinct : names.Nodup) (more : List String)
    {bound : List String} (apart : ∀ name ∈ names, name ∉ bound) :
    firstRepeated? bound (names ++ more) = firstRepeated? (names ++ bound) more := by
  induction names generalizing bound with
  | nil => rfl
  | cons name rest ih =>
    obtain ⟨new, distinct⟩ := List.nodup_cons.1 distinct
    obtain ⟨here, later⟩ := List.forall_mem_cons.1 apart
    rw [List.cons_append, firstRepeated?, if_neg (by simpa using here), ih distinct]
    · apply firstRepeated?_congr
      intro other
      simp only [List.mem_append, List.mem_cons]
      exact or_left_comm.trans or_assoc.symm
    · intro other member
      rw [List.mem_cons, not_or]
      exact ⟨fun same => new (same ▸ member), later other member⟩

theorem firstRepeated?_of_mem {names : List String} (distinct : names.Nodup) {field : String}
    (twice : field ∈ names) (more : List String) :
    firstRepeated? [] (names ++ field :: more) = some field := by
  rw [firstRepeated?_skip distinct _ fun _ _ => List.not_mem_nil, List.append_nil, firstRepeated?,
    if_pos (by simpa using twice)]

namespace ElementType

variable {type : ElementType} {positional : List Value}

/-- Positional arguments are for the fields that come first. -/
theorem keys_byName (few : positional.length ≤ type.fields.length) :
    Assoc.keys (type.byName positional) = Assoc.keys (type.fields.take positional.length) := by
  have cut : type.byName positional =
      (Assoc.keys (type.fields.take positional.length)).zip positional := by
    have names : (Assoc.keys type.fields).length = type.fields.length := List.length_map ..
    rw [byName, List.zip_eq_zip_take_min, names, Nat.min_eq_right few, List.take_length,
      Assoc.keys, ← List.map_take]
    rfl
  have many : (Assoc.keys (type.fields.take positional.length)).length ≤ positional.length := by
    rw [Assoc.keys, List.length_map]
    exact List.length_take_le _ _
  rw [cut]
  exact List.map_fst_zip many

/-- The only argument is for the first field. -/
theorem byName_single {name : String} {field : Field} {more : List (String × Field)}
    (fields : type.fields = (name, field) :: more) (v : Value) :
    type.byName [v] = [(name, v)] := by
  rw [byName, fields, Assoc.keys, List.map_cons, List.zip_cons_cons, List.zip_nil_right]

theorem nodup_keys_byName (distinct : (Assoc.keys type.fields).Nodup)
    (few : positional.length ≤ type.fields.length) :
    (Assoc.keys (type.byName positional)).Nodup := by
  rw [keys_byName few]
  exact distinct.sublist ((List.take_sublist _ _).map _)

end ElementType

section

variable {c : Catalogue} {span : Span} {id : TypeId} {type : ElementType}
  {positional : List Value} {named : List (String × Value)}

/-! ### Positional arguments -/

/-- To give values to fields in turn is to give them to these fields by name. -/
theorem giveInTurn_eq (values : List Value) (fields : List (String × Field)) (d : Draft) :
    giveInTurn c span values fields d = giveNamed c span ((Assoc.keys fields).zip values) d := by
  induction values generalizing fields d with
  | nil =>
    rw [giveInTurn_nil, List.zip_nil_right]
    rfl
  | cons v rest ih =>
    cases fields with
    | nil => rfl
    | cons field fields =>
      change giveInTurn c span (v :: rest) (field :: fields) d =
        giveNamed c span ((field.1, v) :: (Assoc.keys fields).zip rest) d
      rw [giveInTurn, giveNamed]
      exact bind_congr fun d' => ih fields d'

theorem giveNamed_append (entries more : List (String × Value)) (d : Draft) :
    giveNamed c span (entries ++ more) d =
      giveNamed c span entries d >>= giveNamed c span more := by
  induction entries generalizing d with
  | nil => rfl
  | cons entry rest ih =>
    obtain ⟨name, v⟩ := entry
    rw [List.cons_append, giveNamed, giveNamed, bind_assoc]
    exact bind_congr fun d' => ih d'

theorem start_byName (known : c.get? id = some type) (distinct : (Assoc.keys type.fields).Nodup)
    (few : positional.length ≤ type.fields.length) (names : List String) :
    Draft.start c span id 0 (Assoc.keys (type.byName positional) ++ names) =
      Draft.start c span id positional.length names := by
  have element : c.element id = .ok type := by rw [Catalogue.element, known]
  have bound : firstRepeated? (Assoc.keys (type.fields.take 0))
      (Assoc.keys (type.byName positional) ++ names) =
      firstRepeated? (Assoc.keys (type.fields.take positional.length)) names := by
    have apart : ∀ name ∈ Assoc.keys (type.byName positional), name ∉ ([] : List String) :=
      fun _ _ => List.not_mem_nil
    refine (firstRepeated?_skip (type.nodup_keys_byName distinct few) names apart).trans ?_
    rw [List.append_nil, type.keys_byName few]
  rw [Draft.start, Draft.start, element]
  simp only [bind, Except.bind, bound]
  rw [if_neg (Nat.not_lt_zero _), if_neg (Nat.not_lt.2 few)]

/-- Positional arguments are arguments by name. -/
theorem construct_byName (known : c.get? id = some type)
    (distinct : (Assoc.keys type.fields).Nodup) (few : positional.length ≤ type.fields.length) :
    construct c span id ⟨positional, named⟩ =
      construct c span id ⟨[], type.byName positional ++ named⟩ := by
  have names : Assoc.keys (type.byName positional ++ named) =
      Assoc.keys (type.byName positional) ++ Assoc.keys named := List.map_append ..
  rw [construct, construct, Value.toElement, Value.toElement, names, List.length_nil,
    start_byName known distinct few]
  cases started : Draft.start c span id positional.length (Assoc.keys named) with
  | error e => rfl
  | ok d =>
    obtain rfl : type = d.type :=
      Option.some.inj (known.symm.trans (Plan.start_eq_ok started).1)
    have inTurn : giveInTurn c span positional d.type.fields d =
        giveNamed c span (d.type.byName positional) d := giveInTurn_eq ..
    change (giveInTurn c span positional d.type.fields d >>= fun d =>
        giveNamed c span named d >>= fun d => return d.element) =
      (giveInTurn c span [] d.type.fields d >>= fun d' =>
        giveNamed c span (d.type.byName positional ++ named) d' >>= fun d => return d.element)
    rw [inTurn, giveInTurn_nil, pure_bind, giveNamed_append, bind_assoc]

/-- The first name that comes twice is what a construction complains about. -/
theorem construct_repeated (known : c.get? id = some type)
    (distinct : (Assoc.keys type.fields).Nodup) (few : positional.length ≤ type.fields.length)
    {before after : List (String × Value)} {field : String} {v : Value}
    (new : (Assoc.keys (type.byName positional ++ before)).Nodup)
    (twice : field ∈ Assoc.keys (type.byName positional ++ before)) :
    construct c span id ⟨positional, before ++ (field, v) :: after⟩ =
      throw ⟨.usage (.duplicateArgument type.name field), span⟩ := by
  have element : c.element id = .ok type := by rw [Catalogue.element, known]
  have names : Assoc.keys (type.byName positional ++ (before ++ (field, v) :: after)) =
      Assoc.keys (type.byName positional ++ before) ++ field :: Assoc.keys after := by
    simp only [Assoc.keys, List.map_append, List.map_cons, List.append_assoc]
  have repeats : firstRepeated? (Assoc.keys (type.fields.take 0))
      (Assoc.keys (type.byName positional ++ before) ++ field :: Assoc.keys after) = some field :=
    firstRepeated?_of_mem new twice _
  have refused : Draft.start c span id 0
      (Assoc.keys (type.byName positional ++ before) ++ field :: Assoc.keys after) =
      .error ⟨.usage (.duplicateArgument type.name field), span⟩ := by
    rw [Draft.start, element]
    simp only [bind, Except.bind, repeats]
    rw [if_neg (Nat.not_lt_zero _)]
    rfl
  rw [construct_byName known distinct few, construct, Value.toElement, List.length_nil, names,
    refused]
  rfl

/-! ### Values for children -/

/-- Giving a value to a child slot is making the child and attaching it. -/
theorem give_child {v : Value} (made : v.IsMade) {d : Draft} {field : String} {slot : TypeId}
    (child : d.type.field? field = some (.child slot)) (make : TypeId → Making Element) :
    d.give span field v make = make slot >>= fun child => d.attach span child := by
  rw [Draft.give, made.1, child]
  simp only [Bool.false_eq_true, if_false]
  cases v with
  | element tag => exact absurd rfl (made.2 tag)
  | _ => rfl

/-- A value that is no collection is the only argument for what is made of it. -/
theorem plainElement_bundled {v : Value} (made : v.IsMade)
    (plain : ∀ slot, v.toElement c span slot = plainElement c span v (c.size + 1) slot)
    (id : TypeId) :
    plainElement c span v (c.size + 1) id = construct c span id ⟨[v], []⟩ := by
  rw [← plainElement_succ_size, plainElement_succ, construct, Value.toElement]
  refine bind_congr fun d => ?_
  cases fields : d.type.fields with
  | nil =>
    rw [giveFirst, fields]
    rfl
  | cons first more =>
    obtain ⟨name, field⟩ := first
    have found : d.type.field? name = some field := ElementType.field?_first fields
    have gives : d.give span name v (fun slot => v.toElement c span slot) =
        giveFirst c span v (c.size + 1) d := by
      rw [giveFirst, fields]
      cases field with
      | text => simp [Draft.give, found, made.1]
      | attr key ns => simp [Draft.give, found, made.1]
      | child slot => rw [give_child made found, plain slot]
    rw [giveInTurn, gives, bind_assoc]
    refine bind_congr fun d' => ?_
    rw [giveInTurn_nil, pure_bind]
    rfl

/-- A child is made of the arguments that a value stands for. -/
theorem toElement_passed {v : Value} (made : v.IsMade) (id : TypeId) :
    v.toElement c span id = construct c span id v.passed := by
  cases v with
  | none => cases made.1
  | element tag => exact absurd rfl (made.2 tag)
  | bundle args => rfl
  | tuple items =>
    rw [Value.passed, construct, Value.toElement, Value.toElement]
    refine bind_congr fun d => bind_congr fun d' => ?_
    rw [giveNamed, pure_bind]
  | map entries =>
    rw [Value.passed, construct, Value.toElement, Value.toElement, List.length_nil]
    refine bind_congr fun d => ?_
    rw [giveInTurn_nil, pure_bind]
  | bool | int | float | str | bytes | type | helper =>
    exact plainElement_bundled made (fun _ => rfl) id

/-! ### At any depth -/

/-- What is given to a draft leaves its type, so only drafts of this type are gone on with. -/
theorem give_bind_congr {α : Type} {d : Draft} {name : String} {v : Value}
    {make : TypeId → Making Element} {next next' : Draft → Making α}
    (same : ∀ d' : Draft, d'.type = d.type → next d' = next' d') :
    d.give span name v make >>= next = d.give span name v make >>= next' := by
  unfold Draft.give
  split
  · rw [pure_bind, pure_bind]
    exact same d rfl
  · split
    · rfl
    · rw [pure_bind, pure_bind]
      exact same (d.setText v.display) rfl
    · rw [pure_bind, pure_bind]
      exact same (d.setAttribute _ v.display) rfl
    · split
      · rfl
      · rw [bind_assoc, bind_assoc]
        refine bind_congr fun child => ?_
        funext log
        exact congrFun (same (d.attach span child log).1 rfl) (d.attach span child log).2

theorem giveNamed_bind_congr {α : Type} {entries : List (String × Value)} {d : Draft}
    {next next' : Draft → Making α} (same : ∀ d' : Draft, d'.type = d.type → next d' = next' d') :
    giveNamed c span entries d >>= next = giveNamed c span entries d >>= next' := by
  induction entries generalizing d with
  | nil => exact same d rfl
  | cons entry rest ih =>
    obtain ⟨name, v⟩ := entry
    rw [giveNamed, bind_assoc, bind_assoc]
    refine give_bind_congr fun d' typed => ih fun d'' typed' => ?_
    exact same d'' (typed'.trans typed)

/-- Arguments that differ in one child, which is the same made of either value, come to the same. -/
theorem construct_inside {slot : TypeId} (known : c.get? id = some type) {field : String}
    (child : type.field? field = some (.child slot)) {v w : Value} (made : v.IsMade)
    (made' : w.IsMade) (same : v.toElement c span slot = w.toElement c span slot)
    (before after : List (String × Value)) :
    construct c span id ⟨[], before ++ (field, v) :: after⟩ =
      construct c span id ⟨[], before ++ (field, w) :: after⟩ := by
  have names (u : Value) : Assoc.keys (before ++ (field, u) :: after) =
      Assoc.keys before ++ field :: Assoc.keys after := by
    simp only [Assoc.keys, List.map_append, List.map_cons]
  rw [construct, construct, Value.toElement, Value.toElement, names v, names w]
  cases started : Draft.start c span id ([] : List Value).length
      (Assoc.keys before ++ field :: Assoc.keys after) with
  | error e => rfl
  | ok d =>
    obtain rfl : type = d.type :=
      Option.some.inj (known.symm.trans (Plan.start_eq_ok started).1)
    have given (d' : Draft) (typed : d'.type = d.type) :
        giveNamed c span ((field, v) :: after) d' = giveNamed c span ((field, w) :: after) d' := by
      rw [← typed] at child
      rw [giveNamed, giveNamed, give_child made child, give_child made' child, same]
    change (giveInTurn c span [] d.type.fields d >>= fun d =>
        giveNamed c span (before ++ (field, v) :: after) d >>= fun d => return d.element) =
      (giveInTurn c span [] d.type.fields d >>= fun d =>
        giveNamed c span (before ++ (field, w) :: after) d >>= fun d => return d.element)
    rw [giveInTurn_nil, pure_bind, pure_bind, giveNamed_append, giveNamed_append,
      giveNamed_bind_congr given]

/-- Values that stand for the same child are the same value, or something is made of both. -/
theorem Value.Alike.cases {v w : Value} (same : v.Alike c id w) :
    v = w ∨ v.IsMade ∧ w.IsMade := by
  have bundle (args : Arguments) : (Value.bundle args).IsMade := ⟨rfl, nofun⟩
  induction same with
  | refl => exact .inl rfl
  | symm _ ih => exact ih.imp Eq.symm And.symm
  | trans _ _ first second =>
    rcases first with rfl | ⟨made, made'⟩
    · exact second
    · rcases second with rfl | ⟨-, made''⟩
      · exact .inr ⟨made, made'⟩
      · exact .inr ⟨made, made''⟩
  | bundled made => exact .inr ⟨made, bundle _⟩
  | byName | inside => exact .inr ⟨bundle _, bundle _⟩

/-- Of values that stand for the same child the same is made. -/
theorem Value.Alike.toElement_eq {text : String} (loaded : Catalogue.ofText text = .ok c)
    {v w : Value} (same : v.Alike c id w) : v.toElement c span id = w.toElement c span id := by
  induction same with
  | refl => rfl
  | symm _ ih => exact ih.symm
  | trans _ _ first second => exact first.trans second
  | bundled made => exact toElement_passed made _
  | byName known few =>
    exact construct_byName known (Catalogue.fields_distinct_of_ofText loaded known) few
  | inside known child same ih =>
    rcases same.cases with rfl | ⟨made, made'⟩
    · rfl
    · exact construct_inside known child made made' ih _ _

end

/-- Positional arguments are arguments by name, for the fields in the order in which they are
declared, and a name that comes twice is refused however the arguments are written. Arguments that
differ only in such ways, at any depth, come to the same: the same outcome, and the same document
and diagnostics. -/
theorem create_alike {text : String} {kit : Kit}
    (loaded : Catalogue.ofText text = .ok kit.catalogue) {id : TypeId} {type : ElementType}
    (known : kit.catalogue.get? id = some type) (span : Span) :
    (∀ (positional : List Value) (named : List (String × Value)),
      positional.length ≤ type.fields.length →
      Assembly.create kit id ⟨positional, named⟩ span =
        Assembly.create kit id ⟨[], type.byName positional ++ named⟩ span) ∧
    (∀ (positional : List Value) (before after : List (String × Value)) (field : String)
      (v : Value),
      positional.length ≤ type.fields.length →
      (Assoc.keys (type.byName positional ++ before)).Nodup →
      field ∈ Assoc.keys (type.byName positional ++ before) →
      ∀ a : Assembly,
        (Assembly.create kit id ⟨positional, before ++ (field, v) :: after⟩ span).run a =
          (.error ⟨.usage (.duplicateArgument type.name field), span⟩, a) ∧
        (Assembly.create kit id
            ⟨[], type.byName positional ++ (before ++ (field, v) :: after)⟩ span).run a =
          (.error ⟨.usage (.duplicateArgument type.name field), span⟩, a)) ∧
    ∀ args args' : Arguments, (Value.bundle args).Alike kit.catalogue id (.bundle args') →
      Assembly.create kit id args span = Assembly.create kit id args' span := by
  have distinct := Catalogue.fields_distinct_of_ofText loaded known
  have create_congr {args args' : Arguments}
      (same : construct kit.catalogue span id args = construct kit.catalogue span id args') :
      Assembly.create kit id args span = Assembly.create kit id args' span := by
    rw [Assembly.create, Assembly.create, same]
  have byName (positional : List Value) (named : List (String × Value))
      (few : positional.length ≤ type.fields.length) :
      Assembly.create kit id ⟨positional, named⟩ span =
        Assembly.create kit id ⟨[], type.byName positional ++ named⟩ span :=
    create_congr (construct_byName known distinct few)
  refine ⟨byName, ?_, ?_⟩
  · intro positional before after field v few new twice a
    have refused : (Assembly.create kit id ⟨positional, before ++ (field, v) :: after⟩ span).run a =
        (.error ⟨.usage (.duplicateArgument type.name field), span⟩, a) := by
      rw [Assembly.create, construct_repeated known distinct few new twice]
      rfl
    exact ⟨refused, byName positional _ few ▸ refused⟩
  · intro args args' same
    exact create_congr (same.toElement_eq loaded)

/-- A measure that gets a number and its beats by position is one that gets them by name, the beats
as a bundle; it does not take a second number. -/
theorem create_alike_measure :
    ∃ c, Catalogue.ofText Beats.types = .ok c ∧
      Assembly.create ⟨c, false⟩ ⟨0⟩ ⟨[.str "1", .int 3], []⟩ .nowhere =
        Assembly.create ⟨c, false⟩ ⟨0⟩
          ⟨[], [("number", .str "1"), ("Beats", .bundle ⟨[.int 3], []⟩)]⟩ .nowhere ∧
      ((Assembly.create ⟨c, false⟩ ⟨0⟩ ⟨[.str "1"], [("number", .str "2")]⟩ .nowhere).run
        (.start Beats.registry)).1 =
        .error ⟨.usage (.duplicateArgument "Measure" "number"), .nowhere⟩ := by
  have declared : ((Catalogue.ofText Beats.types).toOption.bind (·.get? ⟨0⟩)).map
      (fun type => (type.name, type.fields)) =
        some ("Measure", [("number", .attr "number" none), ("Beats", .child ⟨1⟩)]) := by
    decide +kernel
  cases read : Catalogue.ofText Beats.types with
  | error e =>
    rw [read] at declared
    cases declared
  | ok c =>
    rw [read] at declared
    have loaded : Catalogue.ofText Beats.types = .ok (⟨c, false⟩ : Kit).catalogue := read
    obtain ⟨type, known, shape⟩ := Option.map_eq_some_iff.1 declared
    obtain ⟨name, fields⟩ := Prod.ext_iff.1 shape
    simp only at name fields
    obtain ⟨-, twice, alike⟩ := create_alike loaded known .nowhere
    have keys : Assoc.keys type.fields = ["number", "Beats"] := by rw [fields]; rfl
    have few : [Value.str "1", .int 3].length ≤ type.fields.length := by rw [fields]; decide
    have slot : type.field? "Beats" = some (.child ⟨1⟩) := by rw [ElementType.field?, fields]; rfl
    have named : (Value.bundle ⟨[.str "1", .int 3], []⟩).Alike c ⟨0⟩
        (.bundle ⟨[], type.byName [.str "1", .int 3] ++ []⟩) := .byName known few
    have bundled : (Value.bundle ⟨[], [("number", .str "1")] ++ [("Beats", .int 3)]⟩).Alike c ⟨0⟩
        (.bundle ⟨[], [("number", .str "1")] ++ [("Beats", .bundle ⟨[.int 3], []⟩)]⟩) :=
      .inside known slot (.bundled ⟨rfl, fun _ same => by cases same⟩)
    rw [ElementType.byName, keys] at named
    refine ⟨c, rfl, alike _ _ (named.trans bundled), ?_⟩
    have bound : Assoc.keys (type.byName [.str "1"] ++ []) = ["number"] := by
      rw [ElementType.byName, keys]
      rfl
    rw [← name]
    exact congrArg Prod.fst (twice [.str "1"] [] [] "number" (.str "2") (by rw [fields]; decide)
      (by rw [bound]; decide) (by rw [bound]; decide) _).1

end ScoreScript
