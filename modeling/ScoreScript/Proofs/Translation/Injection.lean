import ScoreScript.Proofs.Markup.RoundTrip
import ScoreScript.Proofs.Translation.Mirror

/-!
What the texts and values of a document have to do with the script that rebuilds it. They are found
again as string constants, and they have no other effect: documents that differ in nothing else have
scripts that differ in those constants only.
-/

namespace ScoreScript

open Script Script.Grammar

/-! ### Documents and trees but for their texts -/

namespace Element

mutual

/-- The element with its texts and values blotted out. -/
def outline : Element → Element
  | ⟨tag, attributes, children, text, _, _⟩ =>
    { tag, attributes := attributes.map fun entry => (entry.1, ""),
      children := outlineAll children, text := text.map fun _ => "" }

def outlineAll : List Element → List Element
  | [] => []
  | e :: rest => e.outline :: outlineAll rest

end

end Element

namespace Script

mutual

/-- Two calls, or parts of calls, that differ in string constants only. -/
inductive Expr.Alike : Expr → Expr → Prop where
  | text {value value' : String} {span span' : Span} :
      Expr.Alike (.constant (.str value) span) (.constant (.str value') span')
  | name {id : String} {use : Use} {span span' : Span} :
      Expr.Alike (.name id use span) (.name id use span')
  | call {callee callee' : Expr} {args args' : List Expr} {keywords keywords' : List KeywordArg}
      {span span' : Span} (callees : Expr.Alike callee callee')
      (each : List.Forall₂ Expr.Alike args args')
      (fields : List.Forall₂ KeywordArg.Alike keywords keywords') :
      Expr.Alike (.call callee args keywords span) (.call callee' args' keywords' span')

inductive KeywordArg.Alike : KeywordArg → KeywordArg → Prop where
  | mk {name : Option String} {value value' : Expr} {span span' : Span}
      (values : Expr.Alike value value') :
      KeywordArg.Alike (.mk name value span) (.mk name value' span')

end

/-- Two statements of calls that differ in string constants only. -/
inductive Stmt.Alike : Stmt → Stmt → Prop where
  | expr {call call' : Expr} {span span' : Span} (calls : call.Alike call') :
      Stmt.Alike (.expr call span) (.expr call' span')
  | block {call call' : Expr} {body body' : List Stmt} {item item' span span' : Span}
      (calls : call.Alike call') (bodies : List.Forall₂ Stmt.Alike body body') :
      Stmt.Alike (.withStmt [⟨call, none, item⟩] body span)
        (.withStmt [⟨call', none, item'⟩] body' span')

end Script

/-- Lists that are related to lists with the same images are related to each other. -/
theorem forall₂_of_map_eq {α β γ : Type} {f : α → γ} {R : α → β → Prop} {S : β → β → Prop}
    {as as' : List α} {bs bs' : List β} (same : as.map f = as'.map f)
    (one : ∀ a ∈ as, ∀ a' b b', f a = f a' → R a b → R a' b' → S b b')
    (h : List.Forall₂ R as bs) (h' : List.Forall₂ R as' bs') : List.Forall₂ S bs bs' := by
  induction h generalizing as' bs' with
  | nil =>
    cases as' with
    | nil =>
      cases h'
      exact .nil
    | cons a' as' => simp at same
  | cons first _ ih =>
    cases h' with
    | nil => simp at same
    | cons first' later' =>
      obtain ⟨here, there⟩ := List.cons.inj same
      exact .cons (one _ List.mem_cons_self _ _ _ here first first')
        (ih there (fun a member => one a (List.mem_cons_of_mem _ member)) later')

namespace Element

theorem outlineAll_eq_map (children : List Element) :
    outlineAll children = children.map outline := by
  induction children with
  | nil => rfl
  | cons e rest ih => rw [outlineAll, ih, List.map_cons]

theorem outline_eq (e : Element) :
    e.outline = { tag := e.tag, attributes := e.attributes.map fun entry => (entry.1, ""),
                  children := e.children.map outline, text := e.text.map fun _ => "" } := by
  cases e
  rw [outline, outlineAll_eq_map]

theorem nameable_outline {e : Element} : Nameable e.outline ↔ Nameable e := by
  have fields_eq : ((e.attributes.map fun entry => (entry.1, "")).map fun entry =>
      Naming.fieldName entry.1) = e.attributes.map fun entry => Naming.fieldName entry.1 := by
    rw [List.map_map]
    rfl
  rw [outline_eq]
  constructor
  · rintro ⟨type, typeFree, fields, fieldsFree, distinct⟩
    refine ⟨type, typeFree, fun entry member => ?_, fun entry member => ?_, fields_eq ▸ distinct⟩
    · exact fields (entry.1, "") (List.mem_map_of_mem member)
    · exact fieldsFree (entry.1, "") (List.mem_map_of_mem member)
  · rintro ⟨type, typeFree, fields, fieldsFree, distinct⟩
    refine ⟨type, typeFree, ?_, ?_, fields_eq.symm ▸ distinct⟩ <;> intro _ member <;>
      obtain ⟨entry, inside, rfl⟩ := List.mem_map.1 member
    · exact fields entry inside
    · exact fieldsFree entry inside

theorem everywhere_nameable_outline {e : Element} :
    e.outline.Everywhere Nameable ↔ e.Everywhere Nameable := by
  induction e using Element.induction with
  | step e ih =>
    have inside : (∀ c ∈ e.outline.children, c.Everywhere Nameable) ↔
        ∀ c ∈ e.children, c.Everywhere Nameable := by
      rw [outline_eq, List.forall_mem_map]
      exact forall₂_congr ih
    rw [everywhere_iff, everywhere_iff, nameable_outline, inside]

theorem alike_of_isText {value value' : String} {arg arg' : Expr} (h : IsText value arg)
    (h' : IsText value' arg') : arg.Alike arg' := by
  obtain ⟨span, rfl⟩ := h
  obtain ⟨span', rfl⟩ := h'
  exact .text

theorem alike_of_isCall {e e' : Element} {call call' : Expr} (same : e.outline = e'.outline)
    (h : IsCall e call) (h' : IsCall e' call') : call.Alike call' := by
  obtain ⟨place, args, keywords, span, rfl, texts, fields⟩ := h
  obtain ⟨place', args', keywords', span', rfl, texts', fields'⟩ := h'
  rw [outline_eq, outline_eq, Element.mk.injEq] at same
  obtain ⟨tag, names, -, text, -, -⟩ := same
  rw [tag]
  refine .call .name ?_ ?_
  · refine forall₂_of_map_eq (f := fun _ => "") ?_ (fun _ _ _ _ _ _ => alike_of_isText) texts texts'
    rw [← Option.toList_map, ← Option.toList_map, text]
  · refine forall₂_of_map_eq names ?_ fields fields'
    rintro entry - entry' ⟨name, value, span⟩ ⟨name', value', span'⟩ key ⟨named, h⟩ ⟨named', h'⟩
    have keys : entry.1 = entry'.1 := (Prod.mk.injEq _ _ _ _ ▸ key).1
    obtain rfl : name = name' := named.trans (keys ▸ named'.symm)
    exact .mk (alike_of_isText h h')

theorem alike_of_mirrors {e : Element} :
    ∀ {e' : Element} {stmt stmt' : Stmt}, e.outline = e'.outline → Mirrors e stmt →
      Mirrors e' stmt' → stmt.Alike stmt' := by
  induction e using Element.induction with
  | step e ih =>
    intro e' stmt stmt' same h h'
    have children : e.children.map outline = e'.children.map outline := by
      have both := same
      rw [outline_eq, outline_eq, Element.mk.injEq] at both
      exact both.2.2.1
    cases h with
    | leaf alone call =>
      cases h' with
      | leaf _ call' => exact .expr (alike_of_isCall same call call')
      | block inner _ _ => simp [alone, Eq.comm, inner] at children
    | block inner call all =>
      cases h' with
      | leaf alone' _ => simp [alone', inner] at children
      | block _ call' all' =>
        exact .block (alike_of_isCall same call call')
          (forall₂_of_map_eq children (fun c member c' _ _ => ih c member) all all')

end Element

/-- A document whose names can be written in scripts is translated into one statement, the tree of
the document, with its texts and values as string constants. A document that differs in texts and
values only is translated into a statement that differs in those constants only. -/
theorem translate_mirrors {document : String} {e : Element}
    (read : Markup.readText document = .ok e) (named : e.Everywhere Nameable) :
    ∃ script stmt, translate document = .ok script ∧
      Module.ofText .unlimited script = .ok ⟨[stmt]⟩ ∧ e.Mirrors stmt ∧
      ∀ document' e', Markup.readText document' = .ok e' → e.outline = e'.outline →
        ∃ script' stmt', translate document' = .ok script' ∧
          Module.ofText .unlimited script' = .ok ⟨[stmt']⟩ ∧ e'.Mirrors stmt' ∧
          stmt.Alike stmt' := by
  obtain ⟨stmt, parsed, same⟩ := Element.ofText_toScript named
  refine ⟨_, stmt, ?_, parsed, same, fun document' e' read' outlines => ?_⟩
  · rw [translate, read]
    rfl
  have named' : e'.Everywhere Nameable := by
    rw [← Element.everywhere_nameable_outline, ← outlines, Element.everywhere_nameable_outline]
    exact named
  obtain ⟨stmt', parsed', same'⟩ := Element.ofText_toScript named'
  exact ⟨_, stmt', by rw [translate, read']; rfl, parsed', same',
    Element.alike_of_mirrors outlines same same'⟩

/-- Texts that would end a literal, a call or a line if they were not quoted. -/
def sampleInjection : Element :=
  { tag := "note", attributes := [("xml:font-id", "'); import os #"), ("id", "\\")],
    text := some "it's \"a\"\\\n) :" }

theorem sampleInjection_nameable : sampleInjection.Everywhere Nameable := by
  rw [Element.everywhere_iff]
  refine ⟨⟨by decide, by decide, ?_, ?_, by decide⟩, nofun⟩ <;> decide

theorem sampleInjection_read :
    Markup.readText sampleInjection.toXml = .ok (sampleInjection.reread 0) := by
  have names : Markup.IsName "note" ∧ Markup.IsName "xml:font-id" ∧ Markup.IsName "id" := by
    decide
  refine Markup.readText_toXml (Element.everywhere_iff.2 ⟨⟨names.1, ?_, by decide⟩, nofun⟩)
    (by decide)
  simpa [sampleInjection] using names.2

theorem sampleInjection_mirrors :
    ∃ script stmt, translate sampleInjection.toXml = .ok script ∧
      Module.ofText .unlimited script = .ok ⟨[stmt]⟩ ∧ (sampleInjection.reread 0).Mirrors stmt := by
  have same : sampleInjection.reread 0 = sampleInjection := rfl
  obtain ⟨script, stmt, translated, parsed, mirrors, -⟩ :=
    translate_mirrors sampleInjection_read (same ▸ sampleInjection_nameable)
  exact ⟨script, stmt, translated, parsed, mirrors⟩

end ScoreScript
