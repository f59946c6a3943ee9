import Scaffold.Proofs.Results
import Scaffold.Proofs.Source.Imports
import Scaffold.Proofs.Source.OneLine
import Scaffold.Proofs.Source.Parts
import Scaffold.Proofs.Source.Statement
import Scaffold.Source.Controller
import Scaffold.Source.Dto
import Scaffold.Source.Model

/-!
# `Scaffold.Proofs.Source.Members` — the properties that files declare and use

A model and a data transfer object are classes whose members stand one after another: each is a blank
line, its decorators, and a line that declares a property. `IsClass` says so of the lines of a file,
with the names of the properties, and holds of both kinds whatever the names are (`isClass_modelLines`,
`isClass_dtoLines`). A controller passes names on and reads members on lines of their own, which are
read back from its lines (`passed_controllerLines`, `results_controllerLines`).

The lines of a class are read by `member?`, without regard to how they were made. Names that hold none
of the marks of a declaration are read back as they are (`members_isClass`).

## Contents
- **Classes.** `declarationLine`, `IsDecorator`, `Declares`, `IsClass`.
- **Files.** `propertyNames`, `isClass_modelLines`, `isClass_dtoLines`, `RefersBack`,
  `exists_refersBack`.
- **Reading members.** `member?`, `Legible`, `member?_declarationLine`, `members_isClass`.
- **Reading routes.** `passed?`, `result?`, `askingLine`, `readingLine`, `Idle`, `exists_routeLines`,
  `exists_controllerLines`, `passed_controllerLines`, `results_controllerLines`.
-/

namespace Scaffold.Source

open Naming (Policy)
open Schema (Column Entity Relation)
open Text (breakOn dropPat? toString_text)

/-! ## Classes -/

/-- The marks that may stand after the name of a property. -/
def propertyMarks : List String := ["", "?", "!"]

/-- The line that declares a property. -/
def declarationLine (p : Policy) (name mark type : String) : String :=
  "    " ++ p.visibilityWord ++ name ++ mark ++ ": " ++ type ++ ";"

/-- An indented line that begins with an at sign. -/
def IsDecorator (l : String) : Prop := "    @".toList <+: l.toList

instance (l : String) : Decidable (IsDecorator l) :=
  inferInstanceAs (Decidable ("    @".toList <+: l.toList))

theorem IsDecorator.append {a : String} (h : IsDecorator a) (b : String) : IsDecorator (a ++ b) := by
  unfold IsDecorator
  rw [String.toList_append]
  exact h.trans (List.prefix_append _ _)

/-- **The lines of a member declare a property**, below a blank line and the decorators. -/
inductive Declares (p : Policy) (name : String) : Lines → Prop
  | intro {decorators : Lines} {mark type : String} (hdecorators : ∀ l ∈ decorators, IsDecorator l)
      (hmark : mark ∈ propertyMarks) :
      Declares p name ("" :: (decorators ++ [declarationLine p name mark type]))

/-- **The lines of a file are those of a class with properties of some names**: lines that are not
    indented, the members in order, and a closing brace. -/
inductive IsClass (p : Policy) : Lines → List String → Prop
  | intro {front : Lines} {blocks : List Lines} {names : List String}
      (hfront : ∀ l ∈ front, l.toList.head? ≠ some ' ')
      (hblocks : List.Forall₂ (Declares p) names blocks) :
      IsClass p (front ++ blocks.flatten ++ ["\x7d"]) names

variable {p : Policy}

/-- The members of columns and of relations make a class together. -/
theorem IsClass.of_parts {front : Lines} {columns relations : List Lines} {names more : List String}
    (hfront : ∀ l ∈ front, l.toList.head? ≠ some ' ')
    (hcolumns : List.Forall₂ (Declares p) names columns)
    (hrelations : List.Forall₂ (Declares p) more relations) :
    IsClass p (front ++ columns.flatten ++ relations.flatten ++ ["\x7d"]) (names ++ more) := by
  rw [List.append_assoc front, ← List.flatten_append]
  exact .intro hfront (List.rel_append hcolumns hrelations)

/-! ## Files -/

theorem strictMark_mem (p : Policy) : p.strictMark ∈ propertyMarks := by
  unfold Policy.strictMark
  cases p.strictness <;> decide

/-- Members whose declaration is known from what stands before it. -/
theorem Declares.of_eq {name : String} (decorators : Lines) (mark type : String) {ls : Lines}
    (hdecorators : ∀ l ∈ decorators, IsDecorator l) (hmark : mark ∈ propertyMarks)
    (h : ls = "" :: (decorators ++ [declarationLine p name mark type])) : Declares p name ls :=
  h ▸ .intro hdecorators hmark

theorem declares_columnLines {c : Column} {ls : Lines} (h : columnLines p c = .ok ls) :
    Declares p (p.propertyName c.name) ls := by
  obtain ⟨argument, -, rfl⟩ := Results.map_eq_ok.mp h
  have hgenerated : ∀ l ∈ (c.generated.map fun g => s!"    @Generated(\"{Choice.name g}\")").toList,
      IsDecorator l := by
    intro l hl
    obtain ⟨g, -, rfl⟩ := Option.map_eq_some_iff.mp (Option.mem_toList.mp hl)
    simp [IsDecorator, toString_text]
  have hcolumn : IsDecorator s!"    @Column(\"{c.dbType}\"{argument})" := by
    simp [IsDecorator, toString_text]
  refine .of_eq _ p.strictMark (columnType c)
    (List.forall_mem_append.mpr ⟨hgenerated, List.forall_mem_singleton.mpr hcolumn⟩)
    (strictMark_mem p) ?_
  simp [declarationLine, propertyLine]

theorem isDecorator_relationLine {r : Relation} {l : String} (h : relationLine p r = .ok l) :
    IsDecorator l := by
  obtain ⟨options, -, rfl⟩ := Results.map_eq_ok.mp h
  simp [IsDecorator, toString_text]

theorem declares_relationLines {r : Relation} {ls : Lines} (h : relationLines p r = .ok ls) :
    Declares p (p.propertyName r.field) ls := by
  obtain ⟨decorator, hdecorator, rfl⟩ := Results.map_eq_ok.mp h
  have hcolumns : ∀ l ∈ joinColumnLines r, IsDecorator l := by
    intro l hl
    unfold joinColumnLines at hl
    simp only at hl
    split at hl
    · exact absurd hl List.not_mem_nil
    · rw [List.mem_singleton.mp hl]
      exact (IsDecorator.append (by decide) _).append _
  have htable : ∀ l ∈ (r.joinTable.map joinTableLine).toList, IsDecorator l := by
    intro l hl
    obtain ⟨t, -, rfl⟩ := Option.map_eq_some_iff.mp (Option.mem_toList.mp hl)
    exact (IsDecorator.append (by decide) _).append _
  refine .of_eq (decorator :: (joinColumnLines r ++ (r.joinTable.map joinTableLine).toList))
    p.strictMark (p.relationType (p.modelName r.related) r.cardinality)
    (List.forall_mem_cons.mpr ⟨isDecorator_relationLine hdecorator,
      List.forall_mem_append.mpr ⟨hcolumns, htable⟩⟩) (strictMark_mem p) ?_
  simp [declarationLine, propertyLine]

theorem declares_dtoColumnLines (p : Policy) (c : Column) :
    Declares p (p.propertyName c.name) (dtoColumnLines p c) := by
  unfold dtoColumnLines
  simp only
  split
  · refine .of_eq ["    @ApiPropertyOptional()"] "?" (c.type ++ if c.nullable then " | null" else "")
      (by decide) (by decide) ?_
    simp only [declarationLine, String.append_assoc]
    rfl
  · refine .of_eq ["    @ApiProperty()"] p.strictMark c.type (by decide) (strictMark_mem p) ?_
    simp only [declarationLine, String.append_assoc]
    rfl

theorem declares_dtoRelationLines (p : Policy) (r : Relation) :
    Declares p (p.propertyName r.field) (dtoRelationLines p r) := by
  have hdecorator : IsDecorator
      ("    @ApiPropertyOptional(" ++ braced s!"type: () => [{p.dtoName r.related}]" ++ ")") :=
    (IsDecorator.append (by decide) _).append _
  refine .of_eq _ "?" (p.dtoName r.related ++ "[]")
    (List.forall_mem_singleton.mpr hdecorator) (by decide) ?_
  simp only [dtoRelationLines, declarationLine, String.append_assoc]
  rfl

theorem not_indented_importLine (clause path : String) :
    (importLine clause path).toList.head? ≠ some ' ' := by
  simp [importLine, toString_text]

theorem not_indented_relatedImports {files : EntityFiles} {a : Artifact} {className : String → String}
    {e : Entity} : ∀ l ∈ relatedImports p files a className e, l.toList.head? ≠ some ' ' := by
  intro l hl
  obtain ⟨n, -, rfl⟩ := List.mem_map.mp hl
  exact not_indented_importLine _ _

theorem not_indented_classHead (name rest : String) :
    (classHead p name ++ rest).toList.head? ≠ some ' ' := by
  simp [classHead]

/-- The properties of a class, in order: those of its columns, then those of its relations. -/
def propertyNames (p : Policy) (e : Entity) : List String :=
  e.columns.map (fun c => p.propertyName c.name) ++ e.relations.map fun r => p.propertyName r.field

/-- **A model is a class with the properties of its entity.** -/
theorem isClass_modelLines {common : String} {files : EntityFiles} {e : Entity} {ls : Lines}
    (h : modelLines p common files e = .ok ls) : IsClass p ls (propertyNames p e) := by
  obtain ⟨indices, columns, relations, hindices, hcolumns, hrelations, rfl⟩ := modelLines_eq_ok.mp h
  have hindexLines : ∀ l ∈ indices, l.toList.head? ≠ some ' ' := by
    refine Results.forall_mem_mapM hindices fun i _ l hline => ?_
    obtain ⟨options, -, rfl⟩ := Results.map_eq_ok.mp hline
    simp [toString_text]
  have hentity : (entityLine e).toList.head? ≠ some ' ' := by simp [entityLine, toString_text]
  refine .of_parts ?_
    (List.forall₂_map_left_iff.mpr
      ((Results.mapM_eq_ok.mp hcolumns).imp fun _ _ => declares_columnLines))
    (List.forall₂_map_left_iff.mpr
      ((Results.mapM_eq_ok.mp hrelations).imp fun _ _ => declares_relationLines))
  simp only [List.forall_mem_append, List.forall_mem_cons]
  exact ⟨⟨⟨⟨⟨not_indented_importLine _ _, not_indented_importLine _ _, List.forall_mem_nil _⟩,
    not_indented_relatedImports⟩, by decide, List.forall_mem_nil _⟩, hindexLines⟩, hentity,
    not_indented_classHead _ _, List.forall_mem_nil _⟩

/-- **A data transfer object is a class with the properties of what it sees of its entity.** -/
theorem isClass_dtoLines (p : Policy) (files : EntityFiles) (e : Entity) :
    IsClass p (dtoLines p files e) (propertyNames p e) := by
  have hcolumns : List.Forall₂ (Declares p) (e.columns.map fun c => p.propertyName c.name)
      (e.columns.map (dtoColumnLines p)) :=
    List.forall₂_map_left_iff.mpr (List.forall₂_map_right_iff.mpr
      (List.forall₂_same.mpr fun c _ => declares_dtoColumnLines p c))
  have hrelations : List.Forall₂ (Declares p) (e.relations.map fun r => p.propertyName r.field)
      (e.relations.map (dtoRelationLines p)) :=
    List.forall₂_map_left_iff.mpr (List.forall₂_map_right_iff.mpr
      (List.forall₂_same.mpr fun r _ => declares_dtoRelationLines p r))
  unfold dtoLines
  rw [List.flatMap_def, List.flatMap_def]
  refine .of_parts ?_ hcolumns hrelations
  simp only [List.forall_mem_append, List.forall_mem_cons]
  exact ⟨⟨⟨not_indented_importLine _ _, List.forall_mem_nil _⟩, not_indented_relatedImports⟩, by decide,
    not_indented_classHead _ _, List.forall_mem_nil _⟩

/-- **A line refers back from a relation to a property of the related entity**: the decorator of the
    relation names it after the related class, before the options if there are any. -/
def RefersBack (p : Policy) (r : Relation) (property line : String) : Prop :=
  ∃ options, (options = "" ∨ ∃ o, options = ", " ++ braced o) ∧
    line = s!"    @{r.cardinality.name}(() => {p.modelName r.related}, " ++
      s!"(related) => related.{property}" ++ options ++ ")"

theorem refersBack_relationLine {r : Relation} {l i : String} (h : relationLine p r = .ok l)
    (hi : filled? r.inverse = some i) : RefersBack p r (p.propertyName i) l := by
  obtain ⟨options, hoptions, rfl⟩ := Results.map_eq_ok.mp h
  refine ⟨options, ?_, ?_⟩
  · obtain ⟨-, rfl⟩ | ⟨-, s, -, rfl⟩ := optionsArgument_eq_ok.mp hoptions
    · exact .inl rfl
    · exact .inr ⟨s, rfl⟩
  · rw [hi]
    simp only [toString_text, String.append_assoc]
    rfl

/-- **A relation that is led back along refers back** on a line of the model. -/
theorem exists_refersBack {common : String} {files : EntityFiles} {e : Entity} {ls : Lines}
    (h : modelLines p common files e = .ok ls) {r : Relation} (hr : r ∈ e.relations) {i : String}
    (hi : filled? r.inverse = some i) : ∃ l ∈ ls, RefersBack p r (p.propertyName i) l := by
  obtain ⟨indices, columns, relations, -, -, hrelations, rfl⟩ := modelLines_eq_ok.mp h
  obtain ⟨block, hblock, hlines⟩ := Results.exists_mem_of_mapM hrelations r hr
  obtain ⟨decorator, hdecorator, rfl⟩ := Results.map_eq_ok.mp hlines
  refine ⟨decorator, ?_, refersBack_relationLine hdecorator hi⟩
  have hmem : decorator ∈ relations.flatten := List.mem_flatten.mpr ⟨_, hblock, by simp⟩
  simp only [modelOf, List.mem_append, hmem, or_true, true_or]

/-! ## Reading members -/

/-- The access modifiers. -/
def modifiers : List String := ["public ", "protected ", "private "]

/-- A line without the access modifier that it begins with. -/
def dropModifier (cs : List Char) : List Char :=
  (modifiers.findSome? fun m => dropPat? m.toList cs).getD cs

/-- A name without the mark after it. -/
def dropMark (cs : List Char) : List Char :=
  if cs.getLast? = some '?' ∨ cs.getLast? = some '!' then cs.dropLast else cs

/-- The property that a line declares: its name stands up to a colon, with a mark after it or none. -/
def member? (line : List Char) : Option String := do
  let r ← dropPat? "    ".toList line
  if r.head? = some '@' then none
  else
    let (name, type) ← breakOn ':' (dropModifier r)
    let _ ← between? [' '] [';'] type
    return String.ofList (dropMark name)

/-- The properties that the lines of a text declare. -/
def members (text : String) : List String := (Text.linesOf text.toList).filterMap member?

/-- Characters that end or change what is read as a name. -/
def declarationMarks : List Char := [' ', ':', '?', '!', '@']

/-- A name that is read back from its declaration. -/
def Legible (name : String) : Prop := ∀ c ∈ name.toList, c ∉ declarationMarks

instance (name : String) : Decidable (Legible name) :=
  List.decidableBAll (fun c => c ∉ declarationMarks) name.toList

/-- **A property is legible** unless its name was left as it is and was not before. -/
theorem legible_propertyName {raw : String} (h : p.propertyCase = .verbatim → Legible raw) :
    Legible (p.propertyName raw) :=
  Naming.forall_mem_convert (fun _ hc => Naming.not_mem_of_isNameChar (by decide) hc) h

/-- What has no blank before its first colon begins with no modifier. -/
theorem dropModifier_eq {a b : List Char} (ha : ' ' ∉ a) :
    dropModifier (a ++ ':' :: b) = a ++ ':' :: b := by
  have hnone : ∀ w : List Char, ':' ∉ w → dropPat? (w ++ [' ']) (a ++ ':' :: b) = none := by
    intro w hw
    cases hdrop : dropPat? (w ++ [' ']) (a ++ ':' :: b) with
    | none => rfl
    | some r =>
        exfalso
        have happend := dropPat?_eq_some hdrop
        rw [List.append_assoc, List.singleton_append] at happend
        rcases List.append_eq_append_iff.mp happend with ⟨u, rfl, hu⟩ | ⟨u, rfl, hu⟩
        · cases u with
          | nil => exact nomatch hu
          | cons d u =>
              cases hu
              exact hw (List.mem_append_right _ List.mem_cons_self)
        · cases u with
          | nil => exact nomatch hu
          | cons d u =>
              cases hu
              exact ha (List.mem_append_right _ List.mem_cons_self)
  have hpublic : dropPat? "public ".toList (a ++ ':' :: b) = none := hnone "public".toList (by decide)
  have hprotected : dropPat? "protected ".toList (a ++ ':' :: b) = none :=
    hnone "protected".toList (by decide)
  have hprivate : dropPat? "private ".toList (a ++ ':' :: b) = none :=
    hnone "private".toList (by decide)
  simp only [dropModifier, modifiers, List.findSome?_cons, hpublic, hprotected, hprivate,
    List.findSome?_nil, Option.getD_none]

/-- The modifier of the policy is dropped from a declaration. -/
theorem dropModifier_visibilityWord (p : Policy) {a b : List Char} (ha : ' ' ∉ a) :
    dropModifier (p.visibilityWord.toList ++ (a ++ ':' :: b)) = a ++ ':' :: b := by
  unfold Policy.visibilityWord
  cases p.visibility with
  | «public» =>
      have hdrop := dropPat?_append "public ".toList (a ++ ':' :: b)
      show dropModifier ("public ".toList ++ (a ++ ':' :: b)) = _
      simp only [dropModifier, modifiers, List.findSome?_cons, hdrop, Option.getD_some]
  | «protected» =>
      have hdrop := dropPat?_append "protected ".toList (a ++ ':' :: b)
      have hpublic : dropPat? "public ".toList ("protected ".toList ++ (a ++ ':' :: b)) = none := rfl
      show dropModifier ("protected ".toList ++ (a ++ ':' :: b)) = _
      simp only [dropModifier, modifiers, List.findSome?_cons, hpublic, hdrop, Option.getD_some]
  | «private» =>
      have hdrop := dropPat?_append "private ".toList (a ++ ':' :: b)
      have hpublic : dropPat? "public ".toList ("private ".toList ++ (a ++ ':' :: b)) = none := rfl
      have hprotected : dropPat? "protected ".toList ("private ".toList ++ (a ++ ':' :: b)) = none :=
        rfl
      show dropModifier ("private ".toList ++ (a ++ ':' :: b)) = _
      simp only [dropModifier, modifiers, List.findSome?_cons, hpublic, hprotected, hdrop,
        Option.getD_some]
  | unmarked => exact dropModifier_eq ha

theorem not_mem_visibilityWord (p : Policy) : '@' ∉ p.visibilityWord.toList := by
  unfold Policy.visibilityWord
  cases p.visibility <;> decide

theorem dropMark_append {name mark : String} (hname : Legible name) (hmark : mark ∈ propertyMarks) :
    dropMark (name.toList ++ mark.toList) = name.toList := by
  simp only [propertyMarks, List.mem_cons, List.not_mem_nil, or_false] at hmark
  unfold dropMark
  rcases hmark with rfl | rfl | rfl
  · rw [String.toList_empty, List.append_nil, if_neg]
    rintro (h | h)
    · exact hname _ (List.mem_of_getLast? h) (by decide)
    · exact hname _ (List.mem_of_getLast? h) (by decide)
  · have hmark : "?".toList = ['?'] := by decide
    rw [hmark, List.getLast?_concat, if_pos (.inl rfl), List.dropLast_concat]
  · have hmark : "!".toList = ['!'] := by decide
    rw [hmark, List.getLast?_concat, if_pos (.inr rfl), List.dropLast_concat]

/-- **A declared property is read back.** -/
theorem member?_declarationLine {name mark : String} (hname : Legible name)
    (hmark : mark ∈ propertyMarks) (type : String) :
    member? (declarationLine p name mark type).toList = some name := by
  -- neither the name nor its mark holds a character that is read otherwise
  have hfree : ∀ c ∈ [' ', ':', '@'], c ∉ name.toList ++ mark.toList := by
    intro c hc hmem
    rcases List.mem_append.mp hmem with hmem | hmem
    · have hmarks : [' ', ':', '@'] ⊆ declarationMarks := by simp [declarationMarks]
      exact hname c hmem (hmarks hc)
    · have hmarks : ∀ mark ∈ propertyMarks, ∀ c ∈ [' ', ':', '@'], c ∉ mark.toList := by
        simp [propertyMarks]
      exact hmarks mark hmark c hc hmem
  have hspace := hfree ' ' (by decide)
  have hcolon := hfree ':' (by decide)
  have hline : (declarationLine p name mark type).toList = "    ".toList ++ (p.visibilityWord.toList ++
      (name.toList ++ mark.toList ++ ':' :: ([' '] ++ type.toList ++ [';']))) := by
    simp [declarationLine]
  have hat : (p.visibilityWord.toList ++
      (name.toList ++ mark.toList ++ ':' :: ([' '] ++ type.toList ++ [';']))).head? ≠ some '@' := by
    rw [← List.append_assoc, List.head?_append]
    intro h
    cases hhead : (p.visibilityWord.toList ++ (name.toList ++ mark.toList)).head? with
    | none =>
        rw [hhead] at h
        exact nomatch h
    | some c =>
        rw [hhead] at h
        cases h
        rcases List.mem_append.mp (List.mem_of_head? hhead) with hmem | hmem
        · exact not_mem_visibilityWord p hmem
        · exact hfree '@' (by decide) hmem
  unfold member?
  rw [hline, dropPat?_append]
  simp only [bind, Option.bind, if_neg hat, dropModifier_visibilityWord p hspace, breakOn_append hcolon,
    between?_append, dropMark_append hname hmark, String.ofList_toList, pure]

theorem dropPat?_of_isDecorator {l : String} (h : IsDecorator l) :
    ∃ r, dropPat? "    ".toList l.toList = some ('@' :: r) := by
  obtain ⟨r, hr⟩ := h
  refine ⟨r, ?_⟩
  rw [← hr]
  simp [dropPat?]

theorem dropPat?_of_not_indented {l : String} (h : l.toList.head? ≠ some ' ') :
    dropPat? "    ".toList l.toList = none := by
  cases hl : l.toList with
  | nil => rfl
  | cons c cs =>
      have hc : ' ' ≠ c := by
        rintro rfl
        exact h (by rw [hl]; rfl)
      simp [dropPat?, hc]

theorem member?_of_isDecorator {l : String} (h : IsDecorator l) : member? l.toList = none := by
  obtain ⟨r, hdrop⟩ := dropPat?_of_isDecorator h
  unfold member?
  rw [hdrop]
  rfl

theorem member?_of_not_indented {l : String} (h : l.toList.head? ≠ some ' ') :
    member? l.toList = none := by
  unfold member?
  rw [dropPat?_of_not_indented h]
  rfl

/-- What is read from blocks is what each of them stands for, if one thing is read from each. -/
theorem filterMap_flatten {f : String → Option String} {names : List String} {blocks : List Lines}
    (h : List.Forall₂ (fun n ls => ls.filterMap f = [n]) names blocks) :
    blocks.flatten.filterMap f = names := by
  induction h with
  | nil => rfl
  | cons hblock _ ih =>
      rw [List.flatten_cons, List.filterMap_append, hblock, ih]
      rfl

/-- The one property that a member declares is read from its lines. -/
theorem Declares.filterMap {name : String} {ls : Lines} (h : Declares p name ls)
    (hname : Legible name) : ls.filterMap (fun l => member? l.toList) = [name] := by
  cases h with
  | @intro decorators mark type hdecorators hmark =>
      have hnone : decorators.filterMap (fun l => member? l.toList) = [] :=
        List.filterMap_eq_nil_iff.mpr fun l hl => member?_of_isDecorator (hdecorators l hl)
      rw [List.filterMap_cons_none rfl, List.filterMap_append, hnone, List.nil_append]
      simp only [List.filterMap_cons, member?_declarationLine hname hmark, List.filterMap_nil]

/-- **The properties of a class are read from its lines**, if their names are legible. -/
theorem members_isClass {ls : Lines} {names : List String} (h : IsClass p ls names)
    (hnames : ∀ n ∈ names, Legible n) : ls.filterMap (fun l => member? l.toList) = names := by
  cases h with
  | @intro front blocks names hfront hblocks =>
      have hnone : front.filterMap (fun l => member? l.toList) = [] :=
        List.filterMap_eq_nil_iff.mpr fun l hl => member?_of_not_indented (hfront l hl)
      have hmembers : blocks.flatten.filterMap (fun l => member? l.toList) = names := by
        have hlegible := (List.forall₂_and_left names blocks).mpr ⟨hnames, hblocks⟩
        exact filterMap_flatten (hlegible.imp fun _ _ h => h.2.filterMap h.1)
      rw [List.filterMap_append, List.filterMap_append, hnone, List.nil_append, hmembers,
        List.filterMap_cons_none rfl, List.filterMap_nil, List.append_nil]

/-! ## Reading routes -/

/-- The relation that a line asks the service for, beside a key. -/
def passed? (line : List Char) : Option String := do
  let r ← dropPat? "        const found = await this.service.findOne(".toList line
  let name ← between? "id, [\"".toList "\"]);".toList ((dropPat? ['+'] r).getD r)
  return String.ofList name

/-- The member that a line reads from what the service found. -/
def result? (line : List Char) : Option String :=
  (between? "        return found?.".toList ";".toList line).map String.ofList

/-- The relations that the lines of a text ask the service for. -/
def passed (text : String) : List String := (Text.linesOf text.toList).filterMap passed?

/-- The members that the lines of a text read from what the service found. -/
def results (text : String) : List String := (Text.linesOf text.toList).filterMap result?

theorem controllerKey_mem (e : Entity) : controllerKey e = "id" ∨ controllerKey e = "+id" := by
  unfold controllerKey
  split
  · split
    · exact .inr rfl
    · exact .inl rfl
  · exact .inr rfl

theorem dropPlus_controllerKey (e : Entity) (r : List Char) :
    (dropPat? ['+'] ((controllerKey e).toList ++ r)).getD ((controllerKey e).toList ++ r) =
      "id".toList ++ r := by
  rcases controllerKey_mem e with hkey | hkey <;> · rw [hkey]; rfl

/-- The line that asks the service for an entity beside one of its relations. -/
def askingLine (key name : String) : String :=
  s!"        const found = await this.service.findOne({key}, [\"{name}\"]);"

/-- The line that reads a member from what the service found. -/
def readingLine (name : String) : String := s!"        return found?.{name};"

theorem passed?_askingLine (e : Entity) (name : String) :
    passed? (askingLine (controllerKey e) name).toList = some name := by
  have hline : (askingLine (controllerKey e) name).toList =
      "        const found = await this.service.findOne(".toList ++
        ((controllerKey e).toList ++ (", [\"".toList ++ name.toList ++ "\"]);".toList)) := by
    unfold askingLine
    simp only [toString_text, String.toList_append, List.append_assoc]
  have hname : between? "id, [\"".toList "\"]);".toList
      ("id".toList ++ (", [\"".toList ++ name.toList ++ "\"]);".toList)) = some name.toList :=
    between?_append "id, [\"".toList "\"]);".toList name.toList
  unfold passed?
  rw [hline, dropPat?_append]
  simp only [bind, Option.bind, dropPlus_controllerKey, hname, String.ofList_toList, pure]

theorem result?_readingLine (name : String) : result? (readingLine name).toList = some name := by
  have hline : (readingLine name).toList =
      "        return found?.".toList ++ name.toList ++ ";".toList := by
    unfold readingLine
    simp only [toString_text, String.toList_append]
  unfold result?
  rw [hline, between?_append, Option.map_some, String.ofList_toList]

/-- A line that returns something passes no name on. -/
theorem passed?_return (r : List Char) : passed? ("        return ".toList ++ r) = none := by
  have hdrop : dropPat? "        const found = await this.service.findOne(".toList
      ("        return ".toList ++ r) = none := rfl
  unfold passed?
  rw [hdrop]
  rfl

theorem passed?_readingLine (name : String) : passed? (readingLine name).toList = none := by
  have hfront : "        return found?.".toList = "        return ".toList ++ "found?.".toList := rfl
  have hline : (readingLine name).toList =
      "        return ".toList ++ ("found?.".toList ++ (name.toList ++ ";".toList)) := by
    unfold readingLine
    simp only [toString_text, String.toList_append, hfront, List.append_assoc]
  rw [hline, passed?_return]

theorem result?_askingLine (key name : String) : result? (askingLine key name).toList = none := by
  have hdrop : ∀ r, dropPat? "        return found?.".toList
      ("        const found = await this.service.findOne(".toList ++ r) = none := fun _ => rfl
  unfold result? between? askingLine
  simp only [toString_text, String.toList_append, List.append_assoc, hdrop, Option.bind_none,
    Option.map_none]

/-- A line that neither passes the name of a relation nor reads a member. -/
def Idle (l : String) : Prop := passed? l.toList = none ∧ result? l.toList = none

theorem idle_of_shallow {l : String} (h : dropPat? "     ".toList l.toList = none) : Idle l := by
  constructor
  · unfold passed?
    cases hdrop : dropPat? "        const found = await this.service.findOne(".toList l.toList with
    | none => rfl
    | some r =>
        rw [dropPat?_eq_some hdrop] at h
        exact absurd h (by simp [dropPat?])
  · unfold result? between?
    cases hdrop : dropPat? "        return found?.".toList l.toList with
    | none => rfl
    | some r =>
        rw [dropPat?_eq_some hdrop] at h
        exact absurd h (by simp [dropPat?])

theorem idle_return (r : String) : Idle ("        return this.service." ++ r) := by
  have hfront : "        return this.service.".toList =
      "        return ".toList ++ "this.service.".toList := rfl
  have hline : ("        return this.service." ++ r).toList =
      "        return ".toList ++ ("this.service.".toList ++ r.toList) := by
    rw [String.toList_append, hfront, List.append_assoc]
  have hdrop : dropPat? "        return found?.".toList
      ("        return ".toList ++ ("this.service.".toList ++ r.toList)) = none := rfl
  unfold Idle
  rw [hline]
  refine ⟨passed?_return _, ?_⟩
  unfold result? between?
  rw [hdrop]
  rfl

/-- A route is idle but for two lines. -/
theorem exists_routeLines (p : Policy) (key : String) (r : Relation) :
    ∃ front back, routeLines p key r = front ++
        [askingLine key (p.propertyName r.field), readingLine (p.propertyName r.field)] ++ back ∧
      ∀ l ∈ front ++ back, Idle l := by
  have hget : Idle s!"    @Get(\":id/{p.propertyName r.field}\")" :=
    idle_of_shallow (by simp [dropPat?, toString_text])
  have hasync : Idle ("    async " ++ p.propertyName ("find_" ++ r.field) ++
      "(@Param(\"id\") id: string) \x7b") :=
    idle_of_shallow (by simp [dropPat?])
  have hclose : Idle "    \x7d" := idle_of_shallow (by decide)
  have hblank : Idle "" := idle_of_shallow rfl
  refine ⟨["", _, _], ["    \x7d"], rfl, ?_⟩
  simp only [List.cons_append, List.nil_append, List.forall_mem_cons]
  exact ⟨hblank, hget, hasync, hclose, List.forall_mem_nil _⟩

/-- Around the routes of its relations a controller is idle. -/
theorem exists_controllerLines (p : Policy) (services dtos : String) (e : Entity)
    (relations : List Relation) :
    ∃ front back, controllerLines p services dtos e relations =
        front ++ relations.flatMap (routeLines p (controllerKey e)) ++ back ∧
      ∀ l ∈ front ++ back, Idle l := by
  have hkey : ∀ method rest : String,
      Idle ("        return this.service." ++ method ++ "(" ++ controllerKey e ++ rest) := by
    intro method rest
    have hidle := idle_return (method ++ "(" ++ controllerKey e ++ rest)
    simpa only [String.append_assoc] using hidle
  have hfindAll : Idle "        return this.service.findAll();" := idle_return "findAll();"
  have hfindOne : Idle s!"        return this.service.findOne({controllerKey e});" :=
    hkey "findOne" ");"
  have hcreate : Idle "        return this.service.create(dto);" := idle_return "create(dto);"
  have hupdate : Idle s!"        return this.service.update({controllerKey e}, dto);" :=
    hkey "update" ", dto);"
  have hremove : Idle s!"        return this.service.remove({controllerKey e});" := hkey "remove" ");"
  refine ⟨_, _, rfl, ?_⟩
  simp only [List.cons_append, List.nil_append, List.forall_mem_cons]
  simp (disch := simp [dropPat?, toString_text, importLine, classHead]) only [idle_of_shallow, hfindAll,
    hfindOne, hcreate, hupdate, hremove, true_and]
  exact List.forall_mem_nil _

/-- What is read between idle lines is all that is read. -/
theorem filterMap_of_idle {f : String → Option String} (hidle : ∀ l, Idle l → f l = none)
    {front ls back : Lines} (h : ∀ l ∈ front ++ back, Idle l) :
    (front ++ ls ++ back).filterMap f = ls.filterMap f := by
  have hfront : front.filterMap f = [] :=
    List.filterMap_eq_nil_iff.mpr fun l hl => hidle l (h l (List.mem_append_left _ hl))
  have hback : back.filterMap f = [] :=
    List.filterMap_eq_nil_iff.mpr fun l hl => hidle l (h l (List.mem_append_right _ hl))
  rw [List.filterMap_append, List.filterMap_append, hfront, hback, List.nil_append, List.append_nil]

/-- What is read from a controller is what is read from the two lines of each of its routes. -/
theorem filterMap_controllerLines {f : String → Option String} (hidle : ∀ l, Idle l → f l = none)
    {e : Entity} (hroute : ∀ name,
      [askingLine (controllerKey e) name, readingLine name].filterMap f = [name])
    (p : Policy) (services dtos : String) (relations : List Relation) :
    (controllerLines p services dtos e relations).filterMap f =
      relations.map fun r => p.propertyName r.field := by
  have hlines : ∀ r, (routeLines p (controllerKey e) r).filterMap f = [p.propertyName r.field] := by
    intro r
    obtain ⟨front, back, hr, hall⟩ := exists_routeLines p (controllerKey e) r
    rw [hr, filterMap_of_idle hidle hall, hroute]
  obtain ⟨front, back, hc, hall⟩ := exists_controllerLines p services dtos e relations
  rw [hc, filterMap_of_idle hidle hall, List.filterMap_flatMap]
  simp only [hlines, List.map_eq_flatMap]

/-- **What a controller passes to its service** is the properties of its relations. -/
theorem passed_controllerLines (p : Policy) (services dtos : String) (e : Entity)
    (relations : List Relation) :
    (controllerLines p services dtos e relations).filterMap (fun l => passed? l.toList) =
      relations.map fun r => p.propertyName r.field :=
  filterMap_controllerLines (fun _ h => h.1)
    (fun name => by simp only [List.filterMap_cons, List.filterMap_nil, passed?_askingLine,
      passed?_readingLine]) p services dtos relations

/-- **What a controller reads from what its service found** is the properties of its relations. -/
theorem results_controllerLines (p : Policy) (services dtos : String) (e : Entity)
    (relations : List Relation) :
    (controllerLines p services dtos e relations).filterMap (fun l => result? l.toList) =
      relations.map fun r => p.propertyName r.field :=
  filterMap_controllerLines (fun _ h => h.2)
    (fun name => by simp only [List.filterMap_cons, List.filterMap_nil, result?_askingLine,
      result?_readingLine]) p services dtos relations

end Scaffold.Source
