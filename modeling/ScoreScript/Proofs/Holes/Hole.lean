import ScoreScript.Proofs.Nesting.Part
import ScoreScript.Proofs.Sandbox.Coverage

/-!
The holes of format strings, and where their values are in a tree. A node fills a hole if what the
hole's source was read to lies within it, as a formatted value with the hole's conversion
(`Node.Fills`). Of a list of parameters only the last one with a star is kept, and only the last
one with two stars, so that a hole in the annotation of an earlier one is lost (`Lost`).
-/

namespace ScoreScript.Script

/-- A hole of a format string: what its expression is read from, and how its value is converted. -/
structure Hole where
  source : String
  conversion : Option Char
  deriving DecidableEq, Repr

mutual

/-- The holes of a piece of a format string, those of its spec included. -/
def FormatPiece.holes : FormatPiece → List Hole
  | .literal _ => []
  | .hole source conversion none => [⟨source, conversion⟩]
  | .hole source conversion (some spec) => ⟨source, conversion⟩ :: pieceHoles spec

def pieceHoles : List FormatPiece → List Hole
  | [] => []
  | piece :: rest => piece.holes ++ pieceHoles rest

end

/-- The holes of a token; only format strings have any. -/
def TokenKind.holes : TokenKind → List Hole
  | .string value .format => pieceHoles ((FormatPiece.ofText? value).getD [])
  | _ => []

/-- The holes of all format strings among some tokens. -/
def holesIn (tokens : List (Token TokenKind)) : List Hole :=
  tokens.flatMap (·.kind.holes)

@[simp] theorem holesIn_nil : holesIn [] = [] := rfl

@[simp] theorem holesIn_cons (t : Token TokenKind) (tokens : List (Token TokenKind)) :
    holesIn (t :: tokens) = t.kind.holes ++ holesIn tokens :=
  List.flatMap_cons

@[simp] theorem holesIn_append (before after : List (Token TokenKind)) :
    holesIn (before ++ after) = holesIn before ++ holesIn after :=
  List.flatMap_append

variable {hole : Nat → String → Except Error Expr} {h : Hole}

/-- Somewhere within the node is a formatted value that was read from the source of the hole. -/
def Node.Fills (hole : Nat → String → Except Error Expr) (n : Node) (h : Hole) : Prop :=
  ∃ room value spec span, hole room h.source = .ok value ∧
    Within n (.expr (.formatted value h.conversion spec span))

theorem Within.trans {n q p : Node} (first : Within n q) (second : Within q p) : Within n p := by
  induction first with
  | self => exact second
  | part direct _ ih => exact .part direct (ih second)

theorem Node.Fills.of_part {n q : Node} (direct : q ∈ n.parts) (fills : q.Fills hole h) :
    n.Fills hole h := by
  obtain ⟨room, value, spec, span, read, within⟩ := fills
  exact ⟨room, value, spec, span, read, .part direct within⟩

def Node.isFormatted : Node → Bool
  | .expr (.formatted ..) => true
  | _ => false

/-- A node that is no formatted value itself has its values in its parts. -/
theorem Node.Fills.part {n : Node} (fills : n.Fills hole h) (other : n.isFormatted = false) :
    ∃ q ∈ n.parts, q.Fills hole h := by
  obtain ⟨room, value, spec, span, read, within⟩ := fills
  rcases within_iff.1 within with rfl | ⟨q, direct, below⟩
  · cases other
  · exact ⟨q, direct, room, value, spec, span, read, below⟩

theorem Node.not_fills_name {id : String} {use : Use} {span : Span} :
    ¬(Node.expr (.name id use span)).Fills hole h := by
  intro fills
  obtain ⟨q, direct, -⟩ := fills.part rfl
  cases direct

/-! ### Targets -/

mutual

/-- Put to another use, an expression still holds the values of its holes. -/
theorem Expr.fills_toTarget {use : Use} : (e : Expr) → ∀ {target : Expr},
    e.toTarget use = .ok target → (Node.expr e).Fills hole h → (Node.expr target).Fills hole h
  | .name id _ span, target, found, fills => absurd fills Node.not_fills_name
  | .member owner field _ span, target, found, fills => by
    cases found
    obtain ⟨q, direct, below⟩ := fills.part rfl
    exact .of_part direct below
  | .subscript owner index _ span, target, found, fills => by
    cases found
    obtain ⟨q, direct, below⟩ := fills.part rfl
    exact .of_part direct below
  | .starred value _ span, target, found, fills => by
    rw [toTarget] at found
    obtain ⟨inner, found', ⟨⟩⟩ := ok_of_bind found
    obtain ⟨q, direct, below⟩ := fills.part rfl
    obtain rfl := List.mem_singleton.1 direct
    exact .of_part List.mem_cons_self (fills_toTarget value found' below)
  | .tuple items _ span, target, found, fills => by
    rw [toTarget] at found
    obtain ⟨inner, found', ⟨⟩⟩ := ok_of_bind found
    obtain ⟨q, direct, below⟩ := fills.part rfl
    obtain ⟨e, member, rfl⟩ := List.mem_map.1 direct
    obtain ⟨target, member', below'⟩ := fills_toTargets items found' member below
    exact .of_part (List.mem_map_of_mem member') below'
  | .list items _ span, target, found, fills => by
    rw [toTarget] at found
    obtain ⟨inner, found', ⟨⟩⟩ := ok_of_bind found
    obtain ⟨q, direct, below⟩ := fills.part rfl
    obtain ⟨e, member, rfl⟩ := List.mem_map.1 direct
    obtain ⟨target, member', below'⟩ := fills_toTargets items found' member below
    exact .of_part (List.mem_map_of_mem member') below'
  | .constant .., _, found, _ | .set .., _, found, _ | .dict .., _, found, _
  | .call .., _, found, _ | .slice .., _, found, _ | .unary .., _, found, _
  | .binary .., _, found, _ | .boolean .., _, found, _ | .compare .., _, found, _
  | .lambda .., _, found, _ | .conditional .., _, found, _ | .named .., _, found, _
  | .listComp .., _, found, _ | .setComp .., _, found, _ | .dictComp .., _, found, _
  | .generator .., _, found, _ | .joined .., _, found, _ | .formatted .., _, found, _
  | .await .., _, found, _ | .yield .., _, found, _ | .yieldFrom .., _, found, _ => by
    cases found

theorem Expr.fills_toTargets {use : Use} : (items : List Expr) → ∀ {targets : List Expr},
    toTargets use items = .ok targets → ∀ {e : Expr}, e ∈ items → (Node.expr e).Fills hole h →
    ∃ target ∈ targets, (Node.expr target).Fills hole h
  | [], _, _, _, inside, _ => absurd inside List.not_mem_nil
  | first :: rest, targets, found, e, inside, fills => by
    rw [toTargets] at found
    obtain ⟨target, first', found⟩ := ok_of_bind found
    obtain ⟨others, rest', ⟨⟩⟩ := ok_of_bind found
    rcases List.mem_cons.1 inside with same | later
    · exact ⟨target, List.mem_cons_self, fills_toTarget first first' (same ▸ fills)⟩
    · obtain ⟨other, there, fills'⟩ := fills_toTargets rest rest' later fills
      exact ⟨other, List.mem_cons_of_mem _ there, fills'⟩

end

/-! ### Parameters -/

def ParamEntry.isRest : ParamEntry → Bool
  | .star (some _) => true
  | _ => false

def ParamEntry.isNames : ParamEntry → Bool
  | .doubleStar _ => true
  | _ => false

def ParamEntry.isStarred (entry : ParamEntry) : Bool :=
  entry.isRest || entry.isNames

open Grammar in
/-- The parameters with a star, or with two, that a later one takes the place of. -/
def replacedParams : List ParamEntry → List Param
  | [] => []
  | entry :: rest =>
    if entry.isRest && rest.any (·.isRest) || entry.isNames && rest.any (·.isNames) then
      entryParams entry ++ replacedParams rest
    else replacedParams rest

namespace Grammar

theorem sort_of_no_rest (flag : Bool) {entries : List ParamEntry}
    (absent : entries.any (·.isRest) = false) :
    ∃ args byName kwarg, ParamEntry.sort flag entries = .mk args none byName kwarg := by
  fun_induction ParamEntry.sort flag entries with
  | case1 flag => exact ⟨_, _, _, rfl⟩
  | case2 flag rest ih => exact ih absent
  | case3 flag rest vararg args later byName kwarg sorted ih =>
    obtain ⟨here, others⟩ := Bool.or_eq_false_iff.1 absent
    obtain ⟨_, _, _, same⟩ := ih others
    cases vararg with
    | some p => cases here
    | none =>
      cases sorted.symm.trans same
      exact ⟨_, _, _, rfl⟩
  | _ =>
    rename_i sorted ih
    obtain ⟨-, others⟩ := Bool.or_eq_false_iff.1 absent
    obtain ⟨_, _, _, same⟩ := ih others
    cases sorted.symm.trans same
    rw [sorted]
    exact ⟨_, _, _, rfl⟩

theorem sort_of_no_names (flag : Bool) {entries : List ParamEntry}
    (absent : entries.any (·.isNames) = false) :
    ∃ args vararg byName, ParamEntry.sort flag entries = .mk args vararg byName none := by
  fun_induction ParamEntry.sort flag entries with
  | case1 flag => exact ⟨_, _, _, rfl⟩
  | case2 flag rest ih => exact ih absent
  | case3 flag rest vararg args later byName kwarg sorted ih =>
    obtain ⟨-, others⟩ := Bool.or_eq_false_iff.1 absent
    obtain ⟨_, _, _, same⟩ := ih others
    cases sorted.symm.trans same
    exact ⟨_, _, _, rfl⟩
  | case4 flag rest names args vararg byName later sorted ih => cases absent
  | _ =>
    rename_i sorted ih
    obtain ⟨-, others⟩ := Bool.or_eq_false_iff.1 absent
    obtain ⟨_, _, _, same⟩ := ih others
    cases sorted.symm.trans same
    rw [sorted]
    exact ⟨_, _, _, rfl⟩

theorem replacedParams_of_mem {entry : ParamEntry} {rest : List ParamEntry} {p : Param}
    (later : p ∈ replacedParams rest) : p ∈ replacedParams (entry :: rest) := by
  rw [replacedParams]
  split
  · exact List.mem_append_right _ later
  · exact later

/-- What is sorted in later on stays. -/
theorem mem_sort_cons (flag : Bool) (entry : ParamEntry) (rest : List ParamEntry) :
    ∃ flag', ∀ q ∈ (Node.parameters (ParamEntry.sort flag' rest)).parts,
      q ∈ (Node.parameters (ParamEntry.sort flag (entry :: rest))).parts := by
  have kept {later first : Option Param} (p : Param) (inside : p ∈ later.toList) :
      p ∈ (later.or first).toList := by
    cases later with
    | none => cases inside
    | some _ => exact inside
  cases entry with
  | slash => exact ⟨flag, fun _ => id⟩
  | star vararg =>
    refine ⟨true, ?_⟩
    rw [ParamEntry.sort]
    cases ParamEntry.sort true rest
    simp only [Node.parts, List.map_append, List.mem_append, List.mem_map]
    grind
  | doubleStar names =>
    refine ⟨flag, ?_⟩
    rw [ParamEntry.sort]
    cases ParamEntry.sort flag rest
    simp only [Node.parts, List.map_append, List.mem_append, List.mem_map]
    grind
  | plain param =>
    refine ⟨flag, ?_⟩
    cases flag <;>
    · rw [ParamEntry.sort]
      cases ParamEntry.sort _ rest
      simp only [Node.parts, List.map_append, List.mem_append, List.map_cons, List.mem_cons]
      grind

/-- Unless a later one takes its place, a parameter is sorted in. -/
theorem mem_sort_cons_self (flag : Bool) (entry : ParamEntry) (rest : List ParamEntry) {p : Param}
    (part : p ∈ entryParams entry) :
    Node.param p ∈ (Node.parameters (ParamEntry.sort flag (entry :: rest))).parts ∨
      entry.isStarred = true ∧ p ∈ replacedParams (entry :: rest) := by
  cases entry with
  | slash => cases part
  | star vararg =>
    obtain rfl := Option.mem_toList.1 part
    by_cases again : rest.any (·.isRest) = true
    · refine .inr ⟨rfl, ?_⟩
      rw [replacedParams, if_pos (by rw [again]; rfl)]
      exact List.mem_append_left _ part
    · obtain ⟨args, byName, kwarg, sorted⟩ := sort_of_no_rest true (eq_false_of_ne_true again)
      left
      rw [ParamEntry.sort, sorted]
      simp [Node.parts]
  | doubleStar names =>
    obtain rfl := List.mem_singleton.1 part
    by_cases again : rest.any (·.isNames) = true
    · refine .inr ⟨rfl, ?_⟩
      rw [replacedParams, if_pos (by rw [again]; rfl)]
      exact List.mem_append_left _ part
    · obtain ⟨args, vararg, byName, sorted⟩ := sort_of_no_names flag (eq_false_of_ne_true again)
      left
      rw [ParamEntry.sort, sorted]
      simp [Node.parts]
  | plain param =>
    obtain rfl := List.mem_singleton.1 part
    left
    cases flag <;>
    · rw [ParamEntry.sort]
      cases ParamEntry.sort _ rest
      simp [Node.parts]

/-- A parameter of an entry is sorted in, or a later one with as many stars takes its place. -/
theorem mem_sort_or_replaced (flag : Bool) {entries : List ParamEntry} {entry : ParamEntry}
    (listed : entry ∈ entries) {p : Param} (part : p ∈ entryParams entry) :
    Node.param p ∈ (Node.parameters (ParamEntry.sort flag entries)).parts ∨
      entry.isStarred = true ∧ p ∈ replacedParams entries := by
  induction entries generalizing flag with
  | nil => cases listed
  | cons first rest ih =>
    rcases List.mem_cons.1 listed with rfl | later
    · exact mem_sort_cons_self flag entry rest part
    · obtain ⟨flag', stays⟩ := mem_sort_cons flag first rest
      exact (ih flag' later).imp (stays _) (.imp_right replacedParams_of_mem)

open Rule in
/-- Among the tokens there is the head of a function, and of its parameters a later one takes the
place of one whose annotation has the hole. -/
def Lost (k : Knot) (tokens : List (Token TokenKind)) (h : Hole) : Prop :=
  ∃ head list n s entries t, head ++ list <:+: tokens ∧
    (∃ id, head.map (·.kind) = [.keyword .defKw, .name id, .op .leftParen]) ∧
    s.rest = list ++ t.rest ∧
    items (isNext (.op .rightParen)) (paramEntry k true (.op .rightParen)) n s =
      .ok (entries, t) ∧
    ∃ p ∈ replacedParams entries, (Node.param p).Fills k.hole h

theorem Lost.mono {k : Knot} {tokens : List (Token TokenKind)} (lost : Lost k tokens h)
    (before after : List (Token TokenKind)) : Lost k (before ++ tokens ++ after) h := by
  obtain ⟨head, list, n, s, entries, t, inside, rest⟩ := lost
  exact ⟨head, list, n, s, entries, t, inside.trans (List.infix_append before tokens after), rest⟩

end Grammar

end ScoreScript.Script
