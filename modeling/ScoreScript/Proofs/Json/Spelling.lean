import Mathlib.Data.List.Nodup
import ScoreScript.Json.Value
import ScoreScript.Proofs.Assoc
import ScoreScript.Proofs.Stateful
import Mathlib.Data.List.Basic

/-!
The keys of objects. A key that comes a second time is refused where it is read, so in a value that
has been read no object has a key twice. Main statement: `Json.distinct_of_ofText`.
-/

namespace ScoreScript

namespace Json

/-- No object has a key twice, however deep it stands in the value. -/
inductive Distinct : Json → Prop where
  | null : Distinct .null
  | bool (b : Bool) : Distinct (.bool b)
  | number (x : Float) : Distinct (.number x)
  | string (s : String) : Distinct (.string s)
  | array {items : List Json} (inside : ∀ item ∈ items, Distinct item) : Distinct (.array items)
  | object {entries : List (String × Json)} (keys : (Assoc.keys entries).Nodup)
    (inside : ∀ entry ∈ entries, Distinct entry.2) : Distinct (.object entries)

theorem Distinct.of_get? {v inner : Json} {key : String} (h : v.Distinct)
    (found : v.get? key = some inner) : inner.Distinct := by
  unfold Json.get? at found
  obtain ⟨entries, object, there⟩ := Option.bind_eq_some_iff.1 found
  cases h with
  | object _ inside =>
    cases object
    have member : ∃ entry ∈ entries, entry.2 = inner := by
      unfold Assoc.get? at there
      obtain ⟨before, after, rfl, -⟩ := List.lookup_eq_some_iff.1 there
      exact ⟨(key, inner), by simp, rfl⟩
    obtain ⟨entry, member, rfl⟩ := member
    exact inside entry member
  | _ => cases object

theorem Distinct.nodup_keys {entries : Assoc Json} (h : (Json.object entries).Distinct) :
    (Assoc.keys entries).Nodup := by
  cases h with
  | object keys _ => exact keys

theorem Distinct.of_mem {entries : Assoc Json} (h : (Json.object entries).Distinct) :
    ∀ entry ∈ entries, entry.2.Distinct := by
  cases h with
  | object _ inside => exact inside

/-- An object can be closed after any entry, which are listed last first while it is read. -/
theorem Distinct.of_entries {entries : Assoc Json} (keys : (Assoc.keys entries).Nodup)
    (inside : ∀ entry ∈ entries, entry.2.Distinct) : (Json.object entries.reverse).Distinct :=
  .object (Assoc.nodup_keys_reverse.2 keys) fun entry member =>
    inside entry (List.mem_reverse.1 member)

variable {limits : Limits} {budget depth : Nat} {t : Token TokenKind} {s s' : Stream} {v : Json}

/-- What the readers yield that have so much budget. -/
structure DistinctWithin (limits : Limits) (budget : Nat) : Prop where
  value : ∀ depth t s v s', Json.value budget limits depth t s = .ok (v, s') → v.Distinct
  members : ∀ depth before t s v s', Json.members budget limits depth before t s = .ok (v, s') →
    (Assoc.keys before).Nodup → (∀ entry ∈ before, entry.2.Distinct) → v.Distinct
  elements : ∀ depth before t s v s', Json.elements budget limits depth before t s = .ok (v, s') →
    (∀ item ∈ before, item.Distinct) → v.Distinct

theorem distinct_value (within : DistinctWithin limits budget)
    (read : value (budget + 1) limits depth t s = .ok (v, s')) : v.Distinct := by
  rw [value] at read
  split at read
  · cases read
    exact .null
  · cases read
    exact .bool true
  · cases read
    exact .bool false
  · cases read
    exact .string _
  · cases read
    exact .number _
  · obtain ⟨-, -, read⟩ := ok_of_bind read
    obtain ⟨⟨key, after⟩, -, read⟩ := ok_of_bind read
    dsimp only at read
    split at read
    · cases read
      exact .object .nil nofun
    · exact within.members _ _ _ _ _ _ read .nil nofun
  · obtain ⟨-, -, read⟩ := ok_of_bind read
    obtain ⟨⟨item, after⟩, -, read⟩ := ok_of_bind read
    dsimp only at read
    split at read
    · cases read
      exact .array nofun
    · exact within.elements _ _ _ _ _ _ read nofun
  · cases read

theorem distinct_members (within : DistinctWithin limits budget) {before : Assoc Json}
    (read : members (budget + 1) limits depth before t s = .ok (v, s'))
    (keys : (Assoc.keys before).Nodup) (inside : ∀ entry ∈ before, entry.2.Distinct) :
    v.Distinct := by
  rw [members] at read
  split at read
  case h_2 => cases read
  rename_i key _
  obtain ⟨⟨colon, after⟩, -, read⟩ := ok_of_bind read
  dsimp only at read
  split at read
  case h_2 => cases read
  obtain ⟨⟨first, after⟩, -, read⟩ := ok_of_bind read
  obtain ⟨⟨inner, after⟩, here, read⟩ := ok_of_bind read
  dsimp only at read
  split at read
  case isTrue => cases read
  rename_i new
  have keys' : (Assoc.keys ((key, inner) :: before)).Nodup :=
    Assoc.nodup_keys_cons.2 ⟨eq_false_of_ne_true new, keys⟩
  have inside' : ∀ entry ∈ (key, inner) :: before, entry.2.Distinct :=
    List.forall_mem_cons.2 ⟨within.value _ _ _ _ _ here, inside⟩
  obtain ⟨⟨separator, after⟩, -, read⟩ := ok_of_bind read
  dsimp only at read
  split at read
  · cases read
    exact .of_entries keys' inside'
  · obtain ⟨⟨next, after⟩, -, read⟩ := ok_of_bind read
    dsimp only at read
    split at read
    · cases read
    · exact within.members _ _ _ _ _ _ read keys' inside'
  · cases read

theorem distinct_elements (within : DistinctWithin limits budget) {before : List Json}
    (read : elements (budget + 1) limits depth before t s = .ok (v, s'))
    (inside : ∀ item ∈ before, item.Distinct) : v.Distinct := by
  rw [elements] at read
  obtain ⟨⟨item, after⟩, here, read⟩ := ok_of_bind read
  have inside' : ∀ item' ∈ item :: before, item'.Distinct :=
    List.forall_mem_cons.2 ⟨within.value _ _ _ _ _ here, inside⟩
  obtain ⟨⟨separator, after⟩, -, read⟩ := ok_of_bind read
  dsimp only at read
  split at read
  · cases read
    exact .array fun item' member => inside' item' (List.mem_reverse.1 member)
  · obtain ⟨⟨next, after⟩, -, read⟩ := ok_of_bind read
    dsimp only at read
    split at read
    · cases read
    · exact within.elements _ _ _ _ _ _ read inside'
  · cases read

theorem distinctWithin (limits : Limits) (budget : Nat) : DistinctWithin limits budget := by
  induction budget with
  | zero =>
    constructor
    · intro depth t s v s' read
      rw [value] at read
      cases read
    · intro depth before t s v s' read
      rw [members] at read
      cases read
    · intro depth before t s v s' read
      rw [elements] at read
      cases read
  | succ budget ih =>
    exact ⟨fun _ _ _ _ _ read => distinct_value ih read,
      fun _ _ _ _ _ _ read => distinct_members ih read,
      fun _ _ _ _ _ _ read => distinct_elements ih read⟩

/-- In what a data file says no object has a key twice. -/
theorem distinct_of_ofText {text : String} {v : Json} (read : ofText text = .ok v) :
    v.Distinct := by
  unfold ofText at read
  obtain ⟨-, -, read⟩ := ok_of_bind read
  unfold ofStream at read
  obtain ⟨⟨first, after⟩, -, read⟩ := ok_of_bind read
  obtain ⟨⟨inner, after⟩, here, read⟩ := ok_of_bind read
  obtain ⟨⟨last, after⟩, -, read⟩ := ok_of_bind read
  dsimp only at read
  split at read
  · cases read
    exact (distinctWithin _ _).value _ _ _ _ _ here
  · cases read

end Json

/-!
How tokens spell a value. A value has one spelling: its items stand between brackets with commas
between them, an entry of an object is its key, a colon and its value. A bracket that is open has
a frame around it, which is what stands before it in an array or an object that is not finished.
-/

namespace Json

/-- The kinds of tokens. -/
def kinds (tokens : List (Token TokenKind)) : List TokenKind :=
  tokens.map (·.kind)

@[simp] theorem kinds_nil : kinds [] = [] := rfl

@[simp] theorem kinds_cons (t : Token TokenKind) (tokens : List (Token TokenKind)) :
    kinds (t :: tokens) = t.kind :: kinds tokens := rfl

@[simp] theorem kinds_append (first second : List (Token TokenKind)) :
    kinds (first ++ second) = kinds first ++ kinds second :=
  List.map_append

/-! ### Values -/

mutual

/-- The tokens of a value. -/
def spelling : Json → List TokenKind
  | null => [.null]
  | bool true => [.true]
  | bool false => [.false]
  | number x => [.number x]
  | string s => [.string s]
  | array items =>
    .leftBracket :: ([TokenKind.comma].intercalate (spellings items) ++ [.rightBracket])
  | object entries =>
    .leftBrace :: ([TokenKind.comma].intercalate (entrySpellings entries) ++ [.rightBrace])

def spellings : List Json → List (List TokenKind)
  | [] => []
  | v :: rest => v.spelling :: spellings rest

def entrySpellings : List (String × Json) → List (List TokenKind)
  | [] => []
  | (key, v) :: rest => (.string key :: .colon :: v.spelling) :: entrySpellings rest

end

mutual

/-- How deep arrays and objects nest. -/
def nesting : Json → Nat
  | array items => nestingAll items + 1
  | object entries => nestingEntries entries + 1
  | _ => 0

def nestingAll : List Json → Nat
  | [] => 0
  | v :: rest => max v.nesting (nestingAll rest)

def nestingEntries : List (String × Json) → Nat
  | [] => 0
  | (_, v) :: rest => max v.nesting (nestingEntries rest)

end

/-- The tokens of an entry of an object. -/
def entrySpelling (entry : String × Json) : List TokenKind :=
  .string entry.1 :: .colon :: entry.2.spelling

theorem spellings_eq_map (items : List Json) : spellings items = items.map spelling := by
  induction items with
  | nil => rfl
  | cons v rest ih => rw [spellings, ih, List.map_cons]

theorem entrySpellings_eq_map (entries : List (String × Json)) :
    entrySpellings entries = entries.map entrySpelling := by
  induction entries with
  | nil => rfl
  | cons entry rest ih => rw [entrySpellings, ih, List.map_cons, entrySpelling]

theorem nestingAll_le_iff {items : List Json} {levels : Nat} :
    nestingAll items ≤ levels ↔ ∀ v ∈ items, v.nesting ≤ levels := by
  induction items with
  | nil => simp [nestingAll]
  | cons v rest ih => rw [nestingAll, Nat.max_le, ih, List.forall_mem_cons]

theorem nestingEntries_le_iff {entries : List (String × Json)} {levels : Nat} :
    nestingEntries entries ≤ levels ↔ ∀ entry ∈ entries, entry.2.nesting ≤ levels := by
  induction entries with
  | nil => simp [nestingEntries]
  | cons entry rest ih => rw [nestingEntries, Nat.max_le, ih, List.forall_mem_cons]

/-- At this depth a value is in order: no object has a key twice, and nothing nests too deep. -/
structure Fits (v : Json) (limits : Limits) (depth : Nat) : Prop where
  distinct : v.Distinct
  nesting : 0 < limits.maxDepth → v.nesting ≤ limits.maxDepth - depth

/-- Whether a value can begin with a token of this kind. -/
def TokenKind.opens : TokenKind → Bool
  | .leftBrace | .leftBracket | .null | .true | .false | .string _ | .number _ => Bool.true
  | _ => Bool.false

/-- A spelling begins with a token that a value can begin with. -/
theorem exists_spelling (v : Json) :
    ∃ kind more, v.spelling = kind :: more ∧ kind.opens = true := by
  cases v with
  | bool b => cases b <;> exact ⟨_, _, rfl, rfl⟩
  | _ => exact ⟨_, _, rfl, rfl⟩

/-- Pieces with a comma behind each. -/
def separated (pieces : List (List TokenKind)) : List TokenKind :=
  pieces.flatMap (· ++ [.comma])

@[simp] theorem separated_nil : separated [] = [] := rfl

@[simp] theorem separated_cons (piece : List TokenKind) (pieces : List (List TokenKind)) :
    separated (piece :: pieces) = piece ++ .comma :: separated pieces := by
  rw [separated, List.flatMap_cons, List.append_assoc, List.singleton_append, separated]

/-- Between the last two pieces there is a comma, and none behind the last. -/
theorem intercalate_concat (pieces : List (List TokenKind)) (last : List TokenKind) :
    [TokenKind.comma].intercalate (pieces ++ [last]) = separated pieces ++ last := by
  induction pieces with
  | nil => simp
  | cons first more ih =>
    obtain ⟨next, rest, split⟩ := List.exists_cons_of_ne_nil (l := more ++ [last]) (by simp)
    rw [List.cons_append, split, List.intercalate_cons_cons, ← split, ih, separated_cons]
    simp

/-- A piece stands behind those that come before it. -/
theorem intercalate_split (earlier : List (List TokenKind)) (piece : List TokenKind)
    (later : List (List TokenKind)) :
    ∃ more, [TokenKind.comma].intercalate (earlier ++ piece :: later) =
      separated earlier ++ (piece ++ more) := by
  induction earlier with
  | nil =>
    cases later with
    | nil => exact ⟨[], by simp⟩
    | cons next rest => exact ⟨_, by simp [List.intercalate_cons_cons]; rfl⟩
  | cons first earlier ih =>
    obtain ⟨more, ih⟩ := ih
    obtain ⟨next, rest, split⟩ := List.exists_cons_of_ne_nil
      (List.append_ne_nil_of_right_ne_nil earlier (List.cons_ne_nil piece later))
    refine ⟨more, ?_⟩
    rw [List.cons_append, split, List.intercalate_cons_cons, ← split, ih, separated_cons]
    simp

theorem intercalate_spellings (earlier : List Json) (last : Json) :
    [TokenKind.comma].intercalate (spellings (earlier ++ [last])) =
      separated (spellings earlier) ++ last.spelling := by
  simp only [spellings_eq_map, List.map_append, List.map_singleton, intercalate_concat]

theorem intercalate_entrySpellings (earlier : List (String × Json)) (last : String × Json) :
    [TokenKind.comma].intercalate (entrySpellings (earlier ++ [last])) =
      separated (entrySpellings earlier) ++ entrySpelling last := by
  simp only [entrySpellings_eq_map, List.map_append, List.map_singleton, intercalate_concat]

/-! ### Open brackets -/

/-- An array or an object that is not finished: what it holds so far, and in an object the key of
the value that comes next. -/
inductive Frame where
  | array (items : List Json)
  | object (entries : List (String × Json)) (key : String)

namespace Frame

def spelling : Frame → List TokenKind
  | array items => .leftBracket :: separated (spellings items)
  | object entries key =>
    .leftBrace :: (separated (entrySpellings entries) ++ [.string key, .colon])

/-- The values in the frame. -/
def values : Frame → List Json
  | array items => items
  | object entries _ => entries.map (·.2)

/-- What the frame holds is in order and nests at most so deep. The key that comes next is not
compared with those before it until it has a value. -/
structure Regular (levels : Nat) (f : Frame) : Prop where
  distinct : ∀ v ∈ f.values, v.Distinct
  nesting : ∀ v ∈ f.values, v.nesting ≤ levels
  keys : ∀ entries key, f = object entries key → (Assoc.keys entries).Nodup

theorem Regular.of_items {items : List Json} {levels : Nat} (distinct : ∀ v ∈ items, v.Distinct)
    (nesting : ∀ v ∈ items, v.nesting ≤ levels) : (array items).Regular levels :=
  ⟨distinct, nesting, nofun⟩

theorem Regular.of_entries {entries : Assoc Json} {levels : Nat} (key : String)
    (keys : (Assoc.keys entries).Nodup) (distinct : ∀ entry ∈ entries, entry.2.Distinct)
    (nesting : ∀ entry ∈ entries, entry.2.nesting ≤ levels) :
    (object entries key).Regular levels := by
  refine ⟨fun v member => ?_, fun v member => ?_, ?_⟩
  · obtain ⟨entry, there, rfl⟩ := List.mem_map.1 member
    exact distinct entry there
  · obtain ⟨entry, there, rfl⟩ := List.mem_map.1 member
    exact nesting entry there
  · rintro entries' key' same
    cases same
    exact keys

end Frame

/-- The frames around a bracket, outermost first, use up so many levels, and nothing in them nests
deeper. -/
inductive Brim : Nat → List Frame → Prop where
  | nil : Brim 0 []
  | cons {levels : Nat} {f : Frame} {path : List Frame} (regular : f.Regular levels)
    (inner : Brim levels path) : Brim (levels + 1) (f :: path)

/-- The tokens before a bracket in these frames. -/
def pathSpelling (path : List Frame) : List TokenKind :=
  path.flatMap (·.spelling)

theorem pathSpelling_cons (f : Frame) (path : List Frame) :
    pathSpelling (f :: path) = f.spelling ++ pathSpelling path :=
  rfl

/-- Whether a token opens an array or an object. -/
def TokenKind.isBracket : TokenKind → Bool
  | .leftBrace | .leftBracket => Bool.true
  | _ => Bool.false

end Json

end ScoreScript
