import ScoreScript.Proofs.Json.Reading

/-!
JSON data is read exactly as its grammar says. What a reader takes is spelled by the tokens it
uses, and it refuses nesting only at the bracket that is one too many. Main statement:
`Json.ofBytes_iff_spelling`.
-/

namespace ScoreScript

namespace Json

variable {limits : Limits} {depth budget : Nat} {stop span : Span} {t : Token TokenKind}
  {tokens : List (Token TokenKind)}

/-- In these tokens a bracket is one too many. Before it there are tokens of these kinds and then
brackets that are open and leave no more levels. -/
def Overflows (levels : Nat) (span : Span) (tokens : List (Token TokenKind))
    (passed : List TokenKind) : Prop :=
  ∃ path before bracket after, tokens = before ++ bracket :: after ∧
    kinds before = passed ++ pathSpelling path ∧ bracket.kind.isBracket = true ∧
    bracket.span = span ∧ Brim levels path

/-- What reading comes to: a value with some tokens used up, or an error, which is a limit only
where a bracket is one too many. -/
def Settles (limits : Limits) (depth : Nat) (stop : Span) (tokens : List (Token TokenKind))
    (good : Json → List TokenKind → Prop) (bad : List TokenKind → Prop) :
    Except Error (Json × Stream) → Prop
  | .ok (v, s) => ∃ used rest, tokens = used ++ rest ∧ s = ⟨rest, .ok stop⟩ ∧ good v (kinds used)
  | .error e => ∀ limit, e.cause = .limit limit → 0 < limits.maxDepth →
    ∃ passed, bad passed ∧ Overflows (limits.maxDepth - depth) e.span tokens passed

namespace Settles

variable {good good' : Json → List TokenKind → Prop} {bad bad' : List TokenKind → Prop}
  {result : Except Error (Json × Stream)}

/-- Errors of the grammar are no limits. -/
theorem grammar {cause : GrammarError} {place : Span} :
    Settles limits depth stop tokens good bad (.error ⟨.grammar cause, place⟩) := by
  intro limit same
  cases same

/-- Some tokens stand before those that are read. -/
theorem behind {before : List (Token TokenKind)}
    (h : Settles limits depth stop tokens good' bad' result)
    (well : ∀ v spelled, good' v spelled → good v (kinds before ++ spelled))
    (ill : ∀ passed, bad' passed → bad (kinds before ++ passed)) :
    Settles limits depth stop (before ++ tokens) good bad result := by
  cases result with
  | ok result =>
    obtain ⟨used, rest, rfl, rest_eq, here⟩ := h
    exact ⟨before ++ used, rest, by rw [List.append_assoc], rest_eq,
      kinds_append before used ▸ well _ _ here⟩
  | error e =>
    intro limit cause limited
    obtain ⟨passed, here, path, tokens', bracket, after, rfl, spelled, rest⟩ :=
      h limit cause limited
    exact ⟨kinds before ++ passed, ill _ here, path, before ++ tokens', bracket, after,
      by rw [List.append_assoc], by rw [kinds_append, spelled, List.append_assoc], rest⟩

end Settles

/-- What reading a value comes to. -/
def ReadsValue (limits : Limits) (depth : Nat) (stop : Span) (tokens : List (Token TokenKind)) :
    Except Error (Json × Stream) → Prop :=
  Settles limits depth stop tokens (fun v spelled => spelled = v.spelling ∧ v.Fits limits depth)
    (· = [])

/-- What reading the rest of an array comes to. -/
def ReadsItems (limits : Limits) (depth : Nat) (before : List Json) (stop : Span)
    (tokens : List (Token TokenKind)) : Except Error (Json × Stream) → Prop :=
  Settles limits depth stop tokens
    (fun v spelled => ∃ earlier last, v = array (before.reverse ++ (earlier ++ [last])) ∧
      spelled = separated (spellings earlier) ++ (last.spelling ++ [.rightBracket]) ∧
      (∀ v ∈ earlier ++ [last], v.Fits limits depth))
    (fun passed => ∃ items, passed = separated (spellings items) ∧
      ∀ v ∈ items, v.Fits limits depth)

/-- What reading the rest of an object comes to. -/
def ReadsEntries (limits : Limits) (depth : Nat) (before : Assoc Json) (stop : Span)
    (tokens : List (Token TokenKind)) : Except Error (Json × Stream) → Prop :=
  Settles limits depth stop tokens
    (fun v spelled => ∃ earlier last, v = object (before.reverse ++ (earlier ++ [last])) ∧
      spelled = separated (entrySpellings earlier) ++ (entrySpelling last ++ [.rightBrace]) ∧
      (∀ entry ∈ earlier ++ [last], entry.2.Fits limits depth) ∧
      (Assoc.keys (before.reverse ++ (earlier ++ [last]))).Nodup)
    (fun passed => ∃ entries key,
      passed = separated (entrySpellings entries) ++ [.string key, .colon] ∧
      (∀ entry ∈ entries, entry.2.Fits limits depth) ∧
      (Assoc.keys (before.reverse ++ entries)).Nodup)

/-- What the readers do that have so much budget. -/
structure SettlesWithin (limits : Limits) (stop : Span) (budget : Nat) : Prop where
  value : ∀ depth t tokens, ReadsValue limits depth stop (t :: tokens)
    (value budget limits depth t ⟨tokens, .ok stop⟩)
  elements : ∀ depth before t tokens, ReadsItems limits depth before stop (t :: tokens)
    (elements budget limits depth before t ⟨tokens, .ok stop⟩)
  members : ∀ depth before t tokens, (Assoc.keys before).Nodup →
    ReadsEntries limits depth before stop (t :: tokens)
      (members budget limits depth before t ⟨tokens, .ok stop⟩)

/-! ### The end of the text -/

theorem value_eof (limits : Limits) (depth budget : Nat) (ended : t.kind = .eof) (s : Stream) :
    ∃ cause span, value budget limits depth t s = .error ⟨.grammar cause, span⟩ := by
  cases budget with
  | zero => exact ⟨_, _, by rw [value]; rfl⟩
  | succ budget => exact ⟨_, _, by rw [value]; simp only [ended]; rfl⟩

theorem elements_eof (limits : Limits) (depth budget : Nat) (ended : t.kind = .eof)
    (before : List Json) (s : Stream) :
    ∃ cause span, elements budget limits depth before t s = .error ⟨.grammar cause, span⟩ := by
  cases budget with
  | zero => exact ⟨_, _, by rw [elements]; rfl⟩
  | succ budget =>
    obtain ⟨cause, span, fails⟩ := value_eof limits depth budget ended s
    exact ⟨cause, span, by rw [elements, fails]; rfl⟩

theorem members_eof (limits : Limits) (depth budget : Nat) (ended : t.kind = .eof)
    (before : Assoc Json) (s : Stream) :
    ∃ cause span, members budget limits depth before t s = .error ⟨.grammar cause, span⟩ := by
  cases budget with
  | zero => exact ⟨_, _, by rw [members]; rfl⟩
  | succ budget => exact ⟨_, _, by rw [members]; simp only [ended]; rfl⟩

/-! ### What stands behind an item -/

/-- What `elements` does once it has read an item, with the items so far, last first. -/
def elementsBehind (budget : Nat) (limits : Limits) (depth : Nat) (items : List Json) (s : Stream) :
    Except Error (Json × Stream) := do
  let (separator, s) ← s.next
  match separator.kind with
  | .rightBracket => pure (.array items.reverse, s)
  | .comma => do
    let (next, s) ← s.next
    match next.kind with
    | .rightBracket => throw ⟨.grammar .trailingComma, separator.span⟩
    | _ => elements budget limits depth items next s
  | _ => throw ⟨.grammar (.expected "',' or ']'" separator.kind.text), separator.span⟩

/-- What `members` does once it has read an entry, with the entries so far, last first. -/
def membersBehind (budget : Nat) (limits : Limits) (depth : Nat) (entries : Assoc Json)
    (s : Stream) : Except Error (Json × Stream) := do
  let (separator, s) ← s.next
  match separator.kind with
  | .rightBrace => pure (.object entries.reverse, s)
  | .comma => do
    let (next, s) ← s.next
    match next.kind with
    | .rightBrace => throw ⟨.grammar .trailingComma, separator.span⟩
    | _ => members budget limits depth entries next s
  | _ => throw ⟨.grammar (.expected "',' or '\x7d'" separator.kind.text), separator.span⟩

theorem elements_succ (limits : Limits) (depth budget : Nat) (before : List Json)
    (t : Token TokenKind) (s : Stream) :
    elements (budget + 1) limits depth before t s = (do
      let read ← value budget limits depth t s
      elementsBehind budget limits depth (read.1 :: before) read.2) := by
  rw [elements]
  rfl

theorem members_succ (limits : Limits) (depth budget : Nat) (before : Assoc Json) {key : String}
    {colon first : Token TokenKind} {final : Except Error Span} (named : t.kind = .string key)
    (assigns : colon.kind = .colon) :
    members (budget + 1) limits depth before t ⟨colon :: first :: tokens, final⟩ = (do
      let read ← value budget limits depth first ⟨tokens, final⟩
      if before.contains key then throw ⟨.grammar (.repeatedKey key), t.span⟩
      membersBehind budget limits depth ((key, read.1) :: before) read.2) := by
  rw [members]
  simp only [named, bind, Except.bind, Stream.next_cons, assigns]
  rfl

variable {used rest : List (Token TokenKind)}

theorem readsItems_behind (within : SettlesWithin limits stop budget) (before : List Json)
    {v : Json} (spelled : kinds used = v.spelling) (fit : v.Fits limits depth) :
    ReadsItems limits depth before stop (used ++ rest)
      (elementsBehind budget limits depth (v :: before) ⟨rest, .ok stop⟩) := by
  cases rest with
  | nil => exact .grammar
  | cons separator rest =>
    unfold elementsBehind
    simp only [bind, Except.bind, Stream.next_cons]
    split
    · rename_i closed
      refine ⟨used ++ [separator], rest, by simp, rfl, [], v, by simp, ?_, by simpa⟩
      rw [kinds_append, spelled, kinds_cons, closed]
      rfl
    · rename_i separates
      cases rest with
      | nil =>
        obtain ⟨cause, place, fails⟩ := elements_eof limits depth budget
          (t := ⟨.eof, stop⟩) rfl (v :: before) ⟨[], .ok stop⟩
        change ReadsItems _ _ _ _ _ (elements budget limits depth (v :: before) ⟨.eof, stop⟩
          ⟨[], .ok stop⟩)
        rw [fails]
        exact .grammar
      | cons next rest =>
        simp only [Stream.next_cons]
        split
        · exact .grammar
        · rw [List.append_cons]
          refine (within.elements depth (v :: before) next rest).behind ?_ ?_
          · rintro w _ ⟨earlier, last, rfl, rfl, fits⟩
            refine ⟨v :: earlier, last, by simp, ?_, List.forall_mem_cons.2 ⟨fit, fits⟩⟩
            simp [spellings, spelled, separates]
          · rintro _ ⟨items, rfl, fits⟩
            refine ⟨v :: items, ?_, List.forall_mem_cons.2 ⟨fit, fits⟩⟩
            simp [spellings, spelled, separates]
    · exact .grammar

theorem readsEntries_behind (within : SettlesWithin limits stop budget) {before : Assoc Json}
    {key : String} {v : Json} (keys : (Assoc.keys ((key, v) :: before)).Nodup)
    (spelled : kinds used = entrySpelling (key, v)) (fit : v.Fits limits depth) :
    ReadsEntries limits depth before stop (used ++ rest)
      (membersBehind budget limits depth ((key, v) :: before) ⟨rest, .ok stop⟩) := by
  cases rest with
  | nil => exact .grammar
  | cons separator rest =>
    unfold membersBehind
    simp only [bind, Except.bind, Stream.next_cons]
    split
    · rename_i closed
      have keys' := Assoc.nodup_keys_reverse.2 keys
      rw [List.reverse_cons] at keys'
      refine ⟨used ++ [separator], rest, by simp, rfl, [], (key, v), by simp, ?_, by simpa, keys'⟩
      rw [kinds_append, spelled, kinds_cons, closed]
      rfl
    · rename_i separates
      cases rest with
      | nil =>
        obtain ⟨cause, place, fails⟩ := members_eof limits depth budget
          (t := ⟨.eof, stop⟩) rfl ((key, v) :: before) ⟨[], .ok stop⟩
        change ReadsEntries _ _ _ _ _ (members budget limits depth ((key, v) :: before)
          ⟨.eof, stop⟩ ⟨[], .ok stop⟩)
        rw [fails]
        exact .grammar
      | cons next rest =>
        simp only [Stream.next_cons]
        split
        · exact .grammar
        · rw [List.append_cons]
          refine (within.members depth ((key, v) :: before) next rest keys).behind ?_ ?_
          · rintro w _ ⟨earlier, last, rfl, rfl, fits, keys⟩
            refine ⟨(key, v) :: earlier, last, by simp, ?_,
              List.forall_mem_cons.2 ⟨fit, fits⟩, by simpa using keys⟩
            simp [entrySpellings, entrySpelling, spelled, separates]
          · rintro _ ⟨entries, key', rfl, fits, keys⟩
            refine ⟨(key, v) :: entries, key', ?_, List.forall_mem_cons.2 ⟨fit, fits⟩,
              by simpa using keys⟩
            simp [entrySpellings, entrySpelling, spelled, separates]
    · exact .grammar

/-! ### One step of each reader -/

theorem readsItems_step (within : SettlesWithin limits stop budget) (before : List Json)
    (t : Token TokenKind) (tokens : List (Token TokenKind)) :
    ReadsItems limits depth before stop (t :: tokens)
      (elements (budget + 1) limits depth before t ⟨tokens, .ok stop⟩) := by
  have item := within.value depth t tokens
  rw [elements_succ]
  cases read : value budget limits depth t ⟨tokens, .ok stop⟩ with
  | error e =>
    rw [read] at item
    intro limit cause limited
    obtain ⟨_, rfl, overflows⟩ := item limit cause limited
    exact ⟨[], ⟨[], rfl, List.forall_mem_nil _⟩, overflows⟩
  | ok result =>
    rw [read] at item
    obtain ⟨v, s⟩ := result
    obtain ⟨used, rest, split, rfl, spelled, fit⟩ := item
    rw [split]
    exact readsItems_behind within before spelled fit

/-- The value of an entry, behind its key and the colon. -/
theorem readsEntries_item (within : SettlesWithin limits stop budget) {before : Assoc Json}
    {key : String} {colon : Token TokenKind} (keys : (Assoc.keys before).Nodup)
    (named : t.kind = .string key) (assigns : colon.kind = .colon) (first : Token TokenKind)
    (tokens : List (Token TokenKind)) :
    ReadsEntries limits depth before stop (t :: colon :: first :: tokens)
      (members (budget + 1) limits depth before t ⟨colon :: first :: tokens, .ok stop⟩) := by
  have item := within.value depth first tokens
  rw [members_succ limits depth budget before named assigns]
  cases read : value budget limits depth first ⟨tokens, .ok stop⟩ with
  | error e =>
    rw [read] at item
    intro limit cause limited
    obtain ⟨_, rfl, path, passed, bracket, after, split, spelled, rest⟩ :=
      item limit cause limited
    have keys' : (Assoc.keys (before.reverse ++ [])).Nodup := by
      rwa [List.append_nil, Assoc.nodup_keys_reverse]
    refine ⟨[.string key, .colon], ⟨[], key, rfl, List.forall_mem_nil _, keys'⟩, path,
      t :: colon :: passed, bracket, after, by rw [split]; rfl, ?_, rest⟩
    simp [spelled, named, assigns]
  | ok result =>
    rw [read] at item
    obtain ⟨v, s⟩ := result
    obtain ⟨used, rest, split, rfl, spelled, fit⟩ := item
    rw [split]
    simp only [bind, Except.bind]
    split
    · exact .grammar
    · rename_i new
      have keys' : (Assoc.keys ((key, v) :: before)).Nodup :=
        Assoc.nodup_keys_cons.2 ⟨eq_false_of_ne_true new, keys⟩
      have entered : kinds (t :: colon :: used) = entrySpelling (key, v) := by
        rw [kinds_cons, kinds_cons, named, assigns, spelled, entrySpelling]
      exact readsEntries_behind within keys' entered fit

theorem readsEntries_step (within : SettlesWithin limits stop budget) {before : Assoc Json}
    (keys : (Assoc.keys before).Nodup) (t : Token TokenKind) (tokens : List (Token TokenKind)) :
    ReadsEntries limits depth before stop (t :: tokens)
      (members (budget + 1) limits depth before t ⟨tokens, .ok stop⟩) := by
  by_cases named : ∃ key, t.kind = .string key
  case neg =>
    rw [members]
    split
    · exact absurd ⟨_, ‹_›⟩ named
    · exact .grammar
  obtain ⟨key, named⟩ := named
  cases tokens with
  | nil =>
    rw [members]
    simp only [named]
    exact .grammar
  | cons colon tokens =>
    by_cases assigns : colon.kind = .colon
    case neg =>
      rw [members]
      simp only [named, bind, Except.bind, Stream.next_cons]
      exact .grammar
    cases tokens with
    | nil =>
      obtain ⟨cause, place, fails⟩ := value_eof limits depth budget
        (t := ⟨.eof, stop⟩) rfl ⟨[], .ok stop⟩
      rw [members]
      simp only [named, assigns, bind, Except.bind, Stream.next, Except.map, fails]
      exact .grammar
    | cons first tokens => exact readsEntries_item within keys named assigns first tokens

theorem readsValue_single {v : Json} {kind : TokenKind} (here : t.kind = kind)
    (single : v.spelling = [kind]) (fit : v.Fits limits depth) :
    ReadsValue limits depth stop (t :: tokens) (.ok (v, ⟨tokens, .ok stop⟩)) :=
  ⟨[t], tokens, rfl, rfl, by rw [single, ← here]; rfl, fit⟩

/-- One bracket further in. -/
theorem Fits.items {items : List Json} (fits : ∀ v ∈ items, v.Fits limits (depth + 1))
    (room : 0 < limits.maxDepth → depth + 1 ≤ limits.maxDepth) :
    (array items).Fits limits depth := by
  refine ⟨.array fun v member => (fits v member).distinct, fun limited => ?_⟩
  have deep : nestingAll items ≤ limits.maxDepth - (depth + 1) :=
    nestingAll_le_iff.2 fun v member => (fits v member).nesting limited
  have := room limited
  rw [Json.nesting]
  omega

theorem Fits.entries {entries : Assoc Json} (keys : (Assoc.keys entries).Nodup)
    (fits : ∀ entry ∈ entries, entry.2.Fits limits (depth + 1))
    (room : 0 < limits.maxDepth → depth + 1 ≤ limits.maxDepth) :
    (object entries).Fits limits depth := by
  refine ⟨.object keys fun entry member => (fits entry member).distinct, fun limited => ?_⟩
  have deep : nestingEntries entries ≤ limits.maxDepth - (depth + 1) :=
    nestingEntries_le_iff.2 fun entry member => (fits entry member).nesting limited
  have := room limited
  rw [Json.nesting]
  omega

/-- With the frame of its bracket around it, an array is a value. -/
theorem ReadsItems.value {result : Except Error (Json × Stream)}
    (h : ReadsItems limits (depth + 1) [] stop tokens result) (opened : t.kind = .leftBracket)
    (room : 0 < limits.maxDepth → depth + 1 ≤ limits.maxDepth) :
    ReadsValue limits depth stop (t :: tokens) result := by
  cases result with
  | ok result =>
    obtain ⟨used, rest, rfl, rest_eq, earlier, last, array_eq, spelled, fits⟩ := h
    refine ⟨t :: used, rest, rfl, rest_eq, ?_, array_eq ▸ Fits.items fits room⟩
    rw [array_eq, kinds_cons, opened, spelled, List.reverse_nil, List.nil_append, spelling,
      intercalate_spellings, List.append_assoc]
  | error e =>
    intro limit cause limited
    obtain ⟨_, ⟨items, rfl, fits⟩, overflows⟩ := h limit cause limited
    obtain ⟨path, before, bracket, after, rfl, spelled, opens, place, brim⟩ := overflows
    have regular : (Frame.array items).Regular (limits.maxDepth - (depth + 1)) :=
      .of_items (fun v member => (fits v member).distinct)
        fun v member => (fits v member).nesting limited
    have levels : limits.maxDepth - depth = limits.maxDepth - (depth + 1) + 1 := by
      have := room limited
      omega
    refine ⟨[], rfl, .array items :: path, t :: before, bracket, after, rfl, ?_, opens, place,
      levels ▸ .cons regular brim⟩
    rw [kinds_cons, opened, spelled]
    rfl

theorem ReadsEntries.value {result : Except Error (Json × Stream)}
    (h : ReadsEntries limits (depth + 1) [] stop tokens result) (opened : t.kind = .leftBrace)
    (room : 0 < limits.maxDepth → depth + 1 ≤ limits.maxDepth) :
    ReadsValue limits depth stop (t :: tokens) result := by
  cases result with
  | ok result =>
    obtain ⟨used, rest, rfl, rest_eq, earlier, last, object_eq, spelled, fits, keys⟩ := h
    refine ⟨t :: used, rest, rfl, rest_eq, ?_, object_eq ▸ Fits.entries keys fits room⟩
    rw [object_eq, kinds_cons, opened, spelled, List.reverse_nil, List.nil_append, spelling,
      intercalate_entrySpellings, List.append_assoc]
  | error e =>
    intro limit cause limited
    obtain ⟨_, ⟨entries, key, rfl, fits, keys⟩, path, before, bracket, after, rfl, spelled, opens,
      place, brim⟩ := h limit cause limited
    have regular : (Frame.object entries key).Regular (limits.maxDepth - (depth + 1)) :=
      .of_entries key keys (fun entry member => (fits entry member).distinct)
        fun entry member => (fits entry member).nesting limited
    have levels : limits.maxDepth - depth = limits.maxDepth - (depth + 1) + 1 := by
      have := room limited
      omega
    refine ⟨[], rfl, .object entries key :: path, t :: before, bracket, after, rfl, ?_, opens,
      place, levels ▸ .cons regular brim⟩
    rw [kinds_cons, opened, spelled]
    rfl

/-- A bracket is one too many, or there is room for what it opens. -/
theorem readsValue_bracket {next : Except Error (Json × Stream)} (opens : t.kind.isBracket = true)
    (inside : (0 < limits.maxDepth → depth + 1 ≤ limits.maxDepth) →
      ReadsValue limits depth stop (t :: tokens) next) :
    ReadsValue limits depth stop (t :: tokens)
      (limits.checkDepth (depth + 1) t.span >>= fun _ => next) := by
  by_cases room : 0 < limits.maxDepth → depth + 1 ≤ limits.maxDepth
  · rw [checkDepth_of_le room]
    exact inside room
  · obtain ⟨limited, deep⟩ := Classical.not_imp.1 room
    rw [checkDepth_of_lt t.span limited (by omega)]
    intro limit cause _
    have levels : limits.maxDepth - depth = 0 := by omega
    exact ⟨[], rfl, [], [], t, tokens, rfl, rfl, opens, rfl, levels ▸ .nil⟩

theorem readsValue_step (within : SettlesWithin limits stop budget) (t : Token TokenKind)
    (tokens : List (Token TokenKind)) :
    ReadsValue limits depth stop (t :: tokens)
      (value (budget + 1) limits depth t ⟨tokens, .ok stop⟩) := by
  have leaf (v : Json) (flat : v.nesting = 0) (distinct : v.Distinct) : v.Fits limits depth :=
    ⟨distinct, fun _ => flat ▸ Nat.zero_le _⟩
  rw [value]
  split
  · exact readsValue_single ‹_› rfl (leaf _ rfl .null)
  · exact readsValue_single ‹_› rfl (leaf _ rfl (.bool true))
  · exact readsValue_single ‹_› rfl (leaf _ rfl (.bool false))
  · exact readsValue_single ‹_› rfl (leaf _ rfl (.string _))
  · exact readsValue_single ‹_› rfl (leaf _ rfl (.number _))
  · rename_i opened
    refine readsValue_bracket (by rw [opened]; rfl) fun room => ?_
    cases tokens with
    | nil =>
      obtain ⟨cause, place, fails⟩ := members_eof limits (depth + 1) budget
        (t := ⟨.eof, stop⟩) rfl [] ⟨[], .ok stop⟩
      change ReadsValue _ _ _ _ (members budget limits (depth + 1) [] ⟨.eof, stop⟩ ⟨[], .ok stop⟩)
      rw [fails]
      exact .grammar
    | cons key tokens =>
      simp only [bind, Except.bind, Stream.next_cons]
      split
      · rename_i closed
        exact ⟨[t, key], tokens, rfl, rfl, by simp [opened, closed, spelling, entrySpellings],
          Fits.entries .nil (List.forall_mem_nil _) room⟩
      · exact (within.members (depth + 1) [] key tokens .nil).value opened room
  · rename_i opened
    refine readsValue_bracket (by rw [opened]; rfl) fun room => ?_
    cases tokens with
    | nil =>
      obtain ⟨cause, place, fails⟩ := elements_eof limits (depth + 1) budget
        (t := ⟨.eof, stop⟩) rfl [] ⟨[], .ok stop⟩
      change ReadsValue _ _ _ _ (elements budget limits (depth + 1) [] ⟨.eof, stop⟩ ⟨[], .ok stop⟩)
      rw [fails]
      exact .grammar
    | cons item tokens =>
      simp only [bind, Except.bind, Stream.next_cons]
      split
      · rename_i closed
        exact ⟨[t, item], tokens, rfl, rfl, by simp [opened, closed, spelling, spellings],
          Fits.items (List.forall_mem_nil _) room⟩
      · exact (within.elements (depth + 1) [] item tokens).value opened room
  · exact .grammar

theorem settlesWithin (limits : Limits) (stop : Span) (budget : Nat) :
    SettlesWithin limits stop budget := by
  induction budget with
  | zero =>
    refine ⟨fun depth t tokens => ?_, fun depth before t tokens => ?_,
      fun depth before t tokens _ => ?_⟩
    · rw [value]
      exact .grammar
    · rw [elements]
      exact .grammar
    · rw [members]
      exact .grammar
  | succ budget ih =>
    exact ⟨fun _ t tokens => readsValue_step ih t tokens,
      fun _ before t tokens => readsItems_step ih before t tokens,
      fun _ _ t tokens keys => readsEntries_step ih keys t tokens⟩

/-! ### Whole texts -/

theorem kind_of_readWord {c after : Cursor} {word : String} {kind kind' : TokenKind}
    (read : readWord c word kind' = .ok (kind, after)) : kind = kind' := by
  unfold readWord at read
  split at read
  · cases read
    rfl
  · cases read

theorem kind_of_readNumber {start after : Cursor} {kind : TokenKind}
    (read : readNumber start = .ok (kind, after)) : ∃ x, kind = .number x := by
  unfold readNumber at read
  obtain ⟨c₁, -, read⟩ := ok_of_bind read
  obtain ⟨c₂, -, read⟩ := ok_of_bind read
  obtain ⟨c₃, -, read⟩ := ok_of_bind read
  split at read
  · cases read
    exact ⟨_, rfl⟩
  · cases read

theorem kind_ne_eof_of_readKind {c after : Cursor} {b : UInt8} {kind : TokenKind}
    (read : readKind c b = .ok (kind, after)) : kind ≠ .eof := by
  unfold readKind at read
  split at read
  case h_7 =>
    obtain ⟨⟨text, c'⟩, -, read⟩ := ok_of_bind read
    cases read
    exact nofun
  case h_8 | h_9 | h_10 =>
    rw [kind_of_readWord read]
    exact nofun
  case h_11 =>
    split at read
    · obtain ⟨x, rfl⟩ := kind_of_readNumber read
      exact nofun
    · cases read
  all_goals
    cases read
    exact nofun

/-- The end of the text is no token of its stream. -/
theorem Stream.kind_ne_eof {comments : Bool} {c : Cursor} {before : List (Token TokenKind)}
    (earlier : ∀ t ∈ before, t.kind ≠ .eof) :
    ∀ t ∈ (Stream.read comments c before).tokens, t.kind ≠ .eof := by
  have reverse : ∀ t ∈ before.reverse, t.kind ≠ .eof := fun t member =>
    earlier t (List.mem_reverse.1 member)
  fun_induction Stream.read comments c before with
  | case4 c before start ignored b here kind after token _ ih =>
    have earlier' : ∀ t ∈ ⟨kind, ⟨start.pos, after.pos⟩⟩ :: before, t.kind ≠ .eof :=
      List.forall_mem_cons.2 ⟨kind_ne_eof_of_readKind token, earlier⟩
    exact ih earlier' fun t member => earlier' t (List.mem_reverse.1 member)
  | _ => exact reverse

theorem ofStream_nil (limits : Limits) (stop : Span) :
    ∃ cause, ofStream limits ⟨[], .ok stop⟩ = .error ⟨.grammar cause, stop⟩ :=
  ⟨_, rfl⟩

theorem ofStream_eq_ok_iff (proper : ∀ t ∈ tokens, t.kind ≠ .eof) {v : Json} :
    ofStream limits ⟨tokens, .ok stop⟩ = .ok v ↔ kinds tokens = v.spelling ∧ v.Fits limits 0 := by
  cases tokens with
  | nil =>
    obtain ⟨cause, refused⟩ := ofStream_nil limits stop
    constructor
    · intro read
      cases refused.symm.trans read
    · rintro ⟨spelled, -⟩
      obtain ⟨kind, more, shape, -⟩ := exists_spelling v
      cases spelled.trans shape
  | cons t tokens =>
    constructor
    · intro read
      have settled := (settlesWithin limits stop (2 * (tokens.length + 2))).value 0 t tokens
      unfold ofStream at read
      simp only [Stream.next_cons, bind, Except.bind, List.length_cons] at read
      split at read
      · cases read
      · rename_i result item
        obtain ⟨w, s⟩ := result
        rw [item] at settled
        obtain ⟨used, rest, split, rfl, spelled, fit⟩ := settled
        cases rest with
        | nil =>
          cases read
          rw [split, List.append_nil]
          exact ⟨spelled, fit⟩
        | cons last rest =>
          have other : last.kind ≠ .eof := proper last (split ▸ by simp)
          simp only [Stream.next_cons] at read
          cases read
    · rintro ⟨spelled, fit⟩
      have read : value (2 * (tokens.length + 2)) limits 0 t ⟨tokens ++ [], .ok stop⟩ =
          .ok (v, ⟨[], .ok stop⟩) := (isRead fit).value_eq spelled (by omega)
      rw [List.append_nil] at read
      unfold ofStream
      simp only [Stream.next_cons, bind, Except.bind, List.length_cons, read]
      rfl

theorem ofStream_eq_error_iff (limited : 0 < limits.maxDepth) :
    ofStream limits ⟨tokens, .ok stop⟩ = .error ⟨.limit (.depth limits.maxDepth), span⟩ ↔
      Overflows limits.maxDepth span tokens [] := by
  cases tokens with
  | nil =>
    obtain ⟨cause, refused⟩ := ofStream_nil limits stop
    constructor
    · intro read
      cases refused.symm.trans read
    · rintro ⟨path, before, bracket, after, split, -⟩
      cases before <;> cases split
  | cons t tokens =>
    constructor
    · intro read
      have settled := (settlesWithin limits stop (2 * (tokens.length + 2))).value 0 t tokens
      unfold ofStream at read
      simp only [Stream.next_cons, bind, Except.bind, List.length_cons] at read
      split at read
      · rename_i item
        cases read
        rw [item] at settled
        obtain ⟨_, rfl, overflows⟩ := settled _ rfl limited
        exact overflows
      · rename_i result item
        obtain ⟨v, s⟩ := result
        rw [item] at settled
        obtain ⟨used, rest, -, rfl, -⟩ := settled
        cases rest with
        | nil => cases read
        | cons last rest =>
          simp only [Stream.next_cons] at read
          split at read <;> cases read
    · rintro ⟨path, before, bracket, after, split, spelled, opens, rfl, brim⟩
      have length := congrArg List.length split
      simp only [List.length_append, List.length_cons] at length
      have refused : value (2 * (tokens.length + 2)) limits 0 t ⟨tokens, .ok stop⟩ =
          .error ⟨.limit (.depth limits.maxDepth), bracket.span⟩ :=
        value_of_brim brim limited rfl opens split spelled (by omega)
      unfold ofStream
      simp only [Stream.next_cons, bind, Except.bind, List.length_cons, refused]

/-- Of values that do not all fit there is a first one that does not. -/
theorem exists_first {α : Type} (nesting : α → Nat) {items : List α} {levels : Nat}
    (deep : ¬∀ v ∈ items, nesting v ≤ levels) :
    ∃ before v after, items = before ++ v :: after ∧ (∀ w ∈ before, nesting w ≤ levels) ∧
      levels < nesting v := by
  have found : (items.find? fun v => decide (levels < nesting v)).isSome = true := by
    rw [List.find?_isSome]
    simpa using deep
  obtain ⟨v, found⟩ := Option.isSome_iff_exists.1 found
  obtain ⟨large, before, after, split, small⟩ := List.find?_eq_some_iff_append.1 found
  exact ⟨before, v, after, split, fun w member => by simpa using small w member,
    by simpa using large⟩

/-- A value that nests too deep has a bracket that is one too many. -/
theorem exists_brim {v : Json} (distinct : v.Distinct) {levels : Nat} (deep : levels < v.nesting) :
    ∃ path kind after, v.spelling = pathSpelling path ++ kind :: after ∧ kind.isBracket = true ∧
      Brim levels path := by
  induction distinct generalizing levels with
  | array inside ih =>
    rename_i items
    cases levels with
    | zero => exact ⟨[], _, _, rfl, rfl, .nil⟩
    | succ levels =>
      have large : ¬∀ v ∈ items, v.nesting ≤ levels := fun small =>
        absurd (nestingAll_le_iff.2 small) (by rw [nesting] at deep; omega)
      obtain ⟨before, v, after, rfl, small, large⟩ := exists_first nesting large
      obtain ⟨path, kind, rest, spelled, opens, brim⟩ := ih v (by simp) large
      obtain ⟨more, items_eq⟩ := intercalate_split (spellings before) v.spelling (spellings after)
      have regular : (Frame.array before).Regular levels :=
        .of_items (fun w member => inside w (List.mem_append_left _ member)) small
      refine ⟨.array before :: path, kind, rest ++ more ++ [.rightBracket], ?_, opens,
        .cons regular brim⟩
      rw [spelling, spellings_eq_map, List.map_append, List.map_cons, ← spellings_eq_map,
        ← spellings_eq_map, items_eq, spelled, pathSpelling_cons, Frame.spelling]
      simp
  | object keys inside ih =>
    rename_i entries
    cases levels with
    | zero => exact ⟨[], _, _, rfl, rfl, .nil⟩
    | succ levels =>
      have large : ¬∀ entry ∈ entries, entry.2.nesting ≤ levels := fun small =>
        absurd (nestingEntries_le_iff.2 small) (by rw [nesting] at deep; omega)
      obtain ⟨before, ⟨key, v⟩, after, rfl, small, large⟩ :=
        exists_first (fun entry : String × Json => entry.2.nesting) large
      obtain ⟨path, kind, rest, spelled, opens, brim⟩ := ih (key, v) (by simp) large
      obtain ⟨more, entries_eq⟩ :=
        intercalate_split (entrySpellings before) (entrySpelling (key, v)) (entrySpellings after)
      rw [Assoc.keys, List.map_append] at keys
      have regular : (Frame.object before key).Regular levels :=
        .of_entries key keys.of_append_left
          (fun entry member => inside entry (List.mem_append_left _ member)) small
      refine ⟨.object before key :: path, kind, rest ++ more ++ [.rightBrace], ?_, opens,
        .cons regular brim⟩
      rw [spelling, entrySpellings_eq_map, List.map_append, List.map_cons, ← entrySpellings_eq_map,
        ← entrySpellings_eq_map, entries_eq, entrySpelling, spelled, pathSpelling_cons,
        Frame.spelling]
      simp
  | _ => exact absurd deep (Nat.not_lt_zero levels)

/-- JSON is read exactly as its grammar says. Where the bytes are not too many and have tokens, a
value is what the tokens spell, with no key twice in an object and nothing nested too deep, and
there is no other. So a limit on nesting does not change a value that nests within it, and it is
refused at the bracket that is one too many, where the tokens before it are those of finished
values and open brackets. -/
theorem ofBytes_iff_spelling {limits : Limits} {bytes : List UInt8} {stop : Span}
    (ends : (Stream.ofBytes true bytes).final = .ok stop)
    (small : Limits.allows limits.maxSize bytes.length = true) :
    (∀ v, ofBytes limits bytes = .ok v ↔
      kinds (Stream.ofBytes true bytes).tokens = v.spelling ∧ v.Distinct ∧
        (0 < limits.maxDepth → v.nesting ≤ limits.maxDepth)) ∧
    (∀ v, ofBytes ⟨0, limits.maxSize⟩ bytes = .ok v → v.nesting ≤ limits.maxDepth →
      ofBytes limits bytes = .ok v) ∧
    (0 < limits.maxDepth → ∀ v, ofBytes ⟨0, limits.maxSize⟩ bytes = .ok v →
      limits.maxDepth < v.nesting →
      ∃ span, ofBytes limits bytes = .error ⟨.limit (.depth limits.maxDepth), span⟩) ∧
    (0 < limits.maxDepth → ∀ span,
      ofBytes limits bytes = .error ⟨.limit (.depth limits.maxDepth), span⟩ ↔
        ∃ path before bracket after,
          (Stream.ofBytes true bytes).tokens = before ++ bracket :: after ∧
          kinds before = pathSpelling path ∧ bracket.kind.isBracket = true ∧
          bracket.span = span ∧ Brim limits.maxDepth path) := by
  have proper : ∀ t ∈ (Stream.ofBytes true bytes).tokens, t.kind ≠ .eof :=
    Stream.kind_ne_eof nofun
  have stream (limits' : Limits) (same : limits'.maxSize = limits.maxSize) :
      ofBytes limits' bytes =
        ofStream limits' ⟨(Stream.ofBytes true bytes).tokens, .ok stop⟩ := by
    rw [ofBytes, Limits.checkSize, if_pos (same ▸ small), ← ends]
    rfl
  have read (limits' : Limits) (same : limits'.maxSize = limits.maxSize) (v : Json) :
      ofBytes limits' bytes = .ok v ↔
        kinds (Stream.ofBytes true bytes).tokens = v.spelling ∧ v.Fits limits' 0 := by
    rw [stream limits' same, ofStream_eq_ok_iff proper]
  have deepest (limited : 0 < limits.maxDepth) (span : Span) :
      ofBytes limits bytes = .error ⟨.limit (.depth limits.maxDepth), span⟩ ↔
        Overflows limits.maxDepth span (Stream.ofBytes true bytes).tokens [] := by
    rw [stream limits rfl, ofStream_eq_error_iff limited]
  refine ⟨fun v => ?_, fun v whole fits => ?_, fun limited v whole deep => ?_, deepest⟩
  · rw [read limits rfl]
    exact and_congr_right fun _ => ⟨fun fit => ⟨fit.1, fit.2⟩, fun fit => ⟨fit.1, fit.2⟩⟩
  · obtain ⟨spelled, fit⟩ := (read ⟨0, limits.maxSize⟩ rfl v).1 whole
    exact (read limits rfl v).2 ⟨spelled, fit.distinct, fun _ => fits⟩
  · obtain ⟨spelled, fit⟩ := (read ⟨0, limits.maxSize⟩ rfl v).1 whole
    obtain ⟨path, kind, rest, shape, opens, brim⟩ := exists_brim fit.distinct deep
    obtain ⟨before, behind, tokens_eq, earlier, later⟩ := kinds_eq_append (spelled.trans shape)
    obtain ⟨bracket, after, rfl, rfl, -⟩ := kinds_eq_cons later
    exact ⟨bracket.span, (deepest limited _).2
      ⟨path, before, bracket, after, tokens_eq, earlier, opens, rfl, brim⟩⟩

/-- Whether the tokens are two pairs of brackets, one in the other. -/
def areNested : List TokenKind → Bool
  | [.leftBracket, .leftBracket, .rightBracket, .rightBracket] => Bool.true
  | _ => Bool.false

theorem eq_of_areNested {tokens : List TokenKind} (nested : areNested tokens = Bool.true) :
    tokens = (array [.array []]).spelling := by
  unfold areNested at nested
  split at nested
  · rfl
  · cases nested

theorem ofBytes_nested_arrays :
    ofBytes ⟨2, 0⟩ (utf8 "[[]]") = .ok (.array [.array []]) ∧
      ∃ span, ofBytes ⟨1, 0⟩ (utf8 "[[]]") = .error ⟨.limit (.depth 1), span⟩ := by
  have ends : (Stream.ofBytes true (utf8 "[[]]")).final = .ok (.point ⟨4, 1, 5⟩) := by
    decide +kernel
  have spelled : kinds (Stream.ofBytes true (utf8 "[[]]")).tokens =
      (array [.array []]).spelling := eq_of_areNested (by decide +kernel)
  have distinct : (array [.array []]).Distinct :=
    .array (List.forall_mem_singleton.2 (.array (List.forall_mem_nil _)))
  refine ⟨((@ofBytes_iff_spelling ⟨2, 0⟩ _ _ ends rfl).1 _).2
    ⟨spelled, distinct, fun _ => by decide⟩, ?_⟩
  have whole := ((@ofBytes_iff_spelling ⟨0, 0⟩ _ _ ends rfl).1 _).2
    ⟨spelled, distinct, fun limited => absurd limited (by decide)⟩
  exact (@ofBytes_iff_spelling ⟨1, 0⟩ _ _ ends rfl).2.2.1 (by decide) _ whole (by decide)

end Json

end ScoreScript
