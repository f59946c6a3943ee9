import Scaffold.Proofs.Source.Files
import Scaffold.Proofs.Source.Methods

/-!
# `Scaffold.Proofs.Source.Kept` — lines that finishing leaves as they are

A text is finished after it was rendered: it gets its line endings, its first import loses the names that
are not used, and an import of nothing is removed. The first import apart, what begins no import stays. So
the lines of a finished text are those that it was rendered from, if these are kept (`Kept`), but for the
first one (`exists_linesOf_finishChars`).

Where the names of a schema hold no opening brace and no break, a line of a class is kept: it either ends
as a statement or a decorator does (`Closes.kept`), or its only brace is at its end, behind a parenthesis
(`kept_opened`).

## Contents
- **Braces.** `Braceless`, `braceless_append`, `braceless_of_quotable`.
- **Lines.** `Kept`, `Closes`, `Closes.kept`, `kept_opened`, `kept_line`, `Standing.kept`.
- **Texts.** `exists_linesOf_finishChars`.
- **Controllers.** `kept_routeLines`, `kept_findingBlocks`, `kept_changingBlocks`,
  `exists_kept_controllerLines`.
-/

namespace Scaffold.Source

open Naming (Policy Quotable)
open Schema (Entity Relation)
open Text (Apart Eol IsLineEnding OneLine isBlank linesOf recast toString_text)

/-! ## Braces -/

/-- Neither an opening brace nor a line break stands in the text. -/
def Braceless (s : String) : Prop := ∀ c ∈ s.toList, c ≠ '\x7b' ∧ c ≠ '\n' ∧ c ≠ '\r'

instance (s : String) : Decidable (Braceless s) :=
  List.decidableBAll (fun c => c ≠ '\x7b' ∧ c ≠ '\n' ∧ c ≠ '\r') s.toList

theorem braceless_append {a b : String} : Braceless (a ++ b) ↔ Braceless a ∧ Braceless b := by
  unfold Braceless
  rw [String.toList_append]
  exact List.forall_mem_append

theorem braceless_of_quotable {s : String} (h : Quotable s) : Braceless s := by
  intro c hc
  refine ⟨?_, ?_, ?_⟩ <;> rintro rfl <;> exact h _ hc (by decide)

theorem Braceless.not_mem {s : String} (h : Braceless s) : '\x7b' ∉ s.toList :=
  fun hm => (h _ hm).1 rfl

theorem Braceless.oneLine {s : String} (h : Braceless s) : OneLine s.toList := fun c hc => (h c hc).2

/-! ## Lines -/

/-- A line that stays as it is, whatever follows it. -/
structure Kept (l : String) : Prop where
  oneLine : OneLine l.toList
  inert : Inert l.toList

theorem kept_empty : Kept "" := ⟨by decide, inert_nil⟩

/-- What lines end with that open nothing. -/
def closers : List Char := [';', ')', '\x7d']

/-- A line without an opening brace ends with one of these. -/
def Closes (l : String) : Prop := Braceless l ∧ l.toList.getLast?.any closers.contains = true

instance (l : String) : Decidable (Closes l) := by
  unfold Closes
  infer_instance

theorem Closes.append {front back : String} (hback : Closes back) (hfront : Braceless front) :
    Closes (front ++ back) := by
  obtain ⟨hbraceless, hlast⟩ := hback
  obtain ⟨c, hc, -⟩ := (Option.any_eq_true _ _).mp hlast
  refine ⟨braceless_append.mpr ⟨hfront, hbraceless⟩, ?_⟩
  rw [String.toList_append, List.getLast?_append, hc]
  rwa [hc] at hlast

/-- **A line that ends so is kept.** -/
theorem Closes.kept {l : String} (h : Closes l) : Kept l := by
  obtain ⟨hbraceless, hlast⟩ := h
  obtain ⟨c, hlast, hc⟩ := (Option.any_eq_true _ _).mp hlast
  obtain ⟨u, hu⟩ := List.getLast?_eq_some_iff.mp hlast
  have hfree := hbraceless.not_mem
  have hcloser : c ≠ '\x7b' ∧ c ∉ "import".toList ∧ isBlank c = false := by
    have hmem : c = ';' ∨ c = ')' ∨ c = '\x7d' := by simpa [closers] using hc
    rcases hmem with rfl | rfl | rfl <;> decide
  refine ⟨hbraceless.oneLine, ?_⟩
  rw [hu] at hfree ⊢
  exact inert_of_end (fun hm => hfree (List.mem_append_left _ hm)) hcloser.1 hcloser.2.1 hcloser.2.2

/-- **A line that opens a block behind a parenthesis is kept** if it has no other opening brace. -/
theorem kept_opened {front : String} (hfront : Braceless front) : Kept (front ++ ") \x7b") := by
  have hend : ") \x7b".toList = ')' :: ([' '] ++ ['\x7b']) := by decide
  have htext : (front ++ ") \x7b").toList = (front.toList ++ ')' :: [' ']) ++ ['\x7b'] := by
    rw [String.toList_append, hend]
    simp
  constructor
  · rw [String.toList_append]
    exact hfront.oneLine.append (by decide)
  · rw [htext]
    refine inert_of_brace ?_ ?_
    · intro hm
      rcases List.mem_append.mp hm with hm | hm
      · exact hfront.not_mem hm
      · exact absurd hm (by decide)
    · rw [lastSolid?_append (by decide) (by decide)]
      decide

theorem Kept.append {a b : String} (ha : Kept a) (hb : Kept b) : Kept (a ++ b) := by
  constructor
  · rw [String.toList_append]
    exact ha.oneLine.append hb.oneLine
  · rw [String.toList_append]
    exact ha.inert.append hb.inert

theorem kept_line {s : Statement} (h : s.Plain) (hs : s.clause.Substantial) : Kept s.line :=
  ⟨oneLine_line h, inert_line h hs⟩

theorem Standing.kept {l : String} (h : Standing l.toList) : Kept l := ⟨h.oneLine, h.inert⟩

/-! ## Texts -/

/-- **Finishing changes only the first of lines that are kept.** Statements stand in its place, or none. -/
theorem exists_linesOf_finishChars {p : String} {e : Eol} (hp : IsLineEnding p) {names package : String}
    (h : Taken names package) {ls : Lines} (hls : ∀ l ∈ ls, Kept l) (drop : Bool) :
    ∃ ss : List Statement,
      linesOf (finishChars drop (recast e p
        (joinLines p ((taken names package).line :: ls)).toList)) =
      (ss.map Statement.line ++ ls).map String.toList ++ [[]] := by
  have hone : ∀ l ∈ (taken names package).line :: ls, OneLine l.toList :=
    List.forall_mem_cons.mpr ⟨oneLine_line h.plain, fun l hl => (hls l hl).oneLine⟩
  have hnothing : recast e p (joinLines p []).toList = [] := by
    unfold recast
    split <;> rfl
  have hend : Apart p (joinLines p []).toList := fun _ => by simp [joinLines, Text.concat]
  have hrecast := recast_joinLines (e := e) hp hone hend
  rw [List.append_nil, hnothing, List.append_nil, toList_joinLines_cons e.sequence] at hrecast
  obtain ⟨ss, hss, r, hr, htext⟩ := exists_front (e := e) h drop (joinLines e.sequence ls).toList
  have hsame : r = (joinLines e.sequence ls).toList := by
    rcases hr with rfl | rfl
    · rfl
    · have hinert := removeEmptyChars_inert (inert_joinLines (e := e) fun l hl => (hls l hl).inert) []
      rw [List.append_nil] at hinert
      rw [hinert]
      exact List.append_nil _
  have hstatements : ∀ l ∈ ss.map Statement.line, OneLine l.toList :=
    List.forall_mem_map.mpr fun s hs => oneLine_line (hss s hs).1
  have hlines := linesOf_joinLines (e := e) (fun l hl => (hls l hl).oneLine) []
  rw [List.append_nil] at hlines
  refine ⟨ss, ?_⟩
  rw [hrecast, htext, hsame, linesOf_joinLines hstatements, hlines, List.map_append, List.append_assoc]
  rfl

/-! ## Controllers -/

variable {p : Policy}

theorem kept_methodLine {keyword name parameters : String} (hkeyword : keyword ∈ methodKeywords)
    (hname : Braceless name) (hparameters : Braceless parameters) :
    Kept (methodLine keyword name parameters) := by
  have hkeywords : ∀ keyword ∈ methodKeywords, Braceless keyword := by decide
  have hindent : Braceless "    " := by decide
  have hopen : Braceless "(" := by decide
  refine kept_opened ?_
  simp only [braceless_append, hindent, hkeywords keyword hkeyword, hname, hopen, hparameters, and_self]

theorem kept_constructorLine {service : String} (h : Braceless service) :
    Kept (constructorLine service) := by
  have hopened : Kept ("    constructor(private readonly service: " ++ service ++ ") \x7b") :=
    kept_opened (braceless_append.mpr ⟨by decide, h⟩)
  have hclosed : Kept "\x7d" := (by decide : Closes "\x7d").kept
  have hline : constructorLine service =
      "    constructor(private readonly service: " ++ service ++ ") \x7b" ++ "\x7d" := by
    rw [String.append_assoc]
    rfl
  rw [hline]
  exact hopened.append hclosed

theorem braceless_controllerKey (e : Entity) : Braceless (controllerKey e) := by
  rcases controllerKey_mem e with h | h <;> rw [h] <;> decide

/-- A line that hands the key over is kept. -/
theorem kept_keyed (e : Entity) {front back : String} (hfront : Braceless front) (hback : Closes back) :
    Kept (front ++ controllerKey e ++ back) :=
  (hback.append (braceless_append.mpr ⟨hfront, braceless_controllerKey e⟩)).kept

theorem kept_routeLines {r : Relation} (hname : Braceless (p.propertyName r.field))
    (hmethod : Braceless (routeMethod p r)) (e : Entity) :
    ∀ l ∈ routeLines p (controllerKey e) r, Kept l := by
  have hget : Kept s!"    @Get(\":id/{p.propertyName r.field}\")" :=
    (Closes.append (by decide) (braceless_append.mpr ⟨by decide, hname⟩)).kept
  have hline : Kept ("    async " ++ routeMethod p r ++ "(@Param(\"id\") id: string) \x7b") := by
    rw [asyncLine_eq]
    exact kept_methodLine (by decide) hmethod (by decide)
  have hasking : Kept (askingLine (controllerKey e) (p.propertyName r.field)) := by
    have hfront : Braceless ("        const found = await this.service.findOne(" ++ controllerKey e ++
        ", [\"" ++ p.propertyName r.field) := by
      refine braceless_append.mpr ⟨braceless_append.mpr ⟨braceless_append.mpr ⟨?_, ?_⟩, ?_⟩, hname⟩
      · decide
      · exact braceless_controllerKey e
      · decide
    exact (Closes.append (by decide) hfront).kept
  have hreading : Kept (readingLine (p.propertyName r.field)) :=
    (Closes.append (by decide) (braceless_append.mpr ⟨by decide, hname⟩)).kept
  have hclose : Kept "    \x7d" := (by decide : Closes "    \x7d").kept
  unfold routeLines
  simp only [List.forall_mem_cons]
  exact ⟨kept_empty, hget, hline, hasking, hreading, hclose, List.forall_mem_nil _⟩

theorem kept_findingBlocks (e : Entity) : ∀ l ∈ (findingBlocks e).flatten, Kept l := by
  have hclosed : ∀ l ∈ ["    @Get()", "        return this.service.findAll();", "    \x7d",
      "    @Get(\":id\")"], Closes l := by decide
  obtain ⟨hget, hcall, hclose, hgetOne, -⟩ := by simpa only [List.forall_mem_cons] using hclosed
  have hfindAll : Kept ("    findAll(" ++ ") \x7b") := kept_opened (by decide)
  have hfindOne : Kept ("    findOne(@Param(\"id\") id: string" ++ ") \x7b") := kept_opened (by decide)
  have hcallOne : Kept s!"        return this.service.findOne({controllerKey e});" :=
    kept_keyed e (by decide) (by decide)
  unfold findingBlocks
  simp only [List.flatten_cons, List.flatten_nil, List.append_nil, List.cons_append, List.nil_append,
    List.forall_mem_cons]
  exact ⟨kept_empty, hget.kept, hfindAll, hcall.kept, hclose.kept, kept_empty, hgetOne.kept, hfindOne,
    hcallOne, hclose.kept, List.forall_mem_nil _⟩

theorem kept_changingBlocks {e : Entity} (h : Braceless (p.dtoName e.name)) :
    ∀ l ∈ (changingBlocks p e).flatten, Kept l := by
  have hclosed : ∀ l ∈ ["    @Post()", "        return this.service.create(dto);", "    \x7d",
      "    @Put(\":id\")", "    @Delete(\":id\")"], Closes l := by decide
  obtain ⟨hpost, hcall, hclose, hput, hdelete, -⟩ := by simpa only [List.forall_mem_cons] using hclosed
  have hcreate : Kept s!"    create(@Body() dto: {p.dtoName e.name}) \x7b" :=
    kept_opened (braceless_append.mpr ⟨by decide, h⟩)
  have hupdate : Kept s!"    update(@Param(\"id\") id: string, @Body() dto: {p.dtoName e.name}) \x7b" :=
    kept_opened (braceless_append.mpr ⟨by decide, h⟩)
  have hremove : Kept ("    remove(@Param(\"id\") id: string" ++ ") \x7b") := kept_opened (by decide)
  have hcallUpdate : Kept s!"        return this.service.update({controllerKey e}, dto);" :=
    kept_keyed e (by decide) (by decide)
  have hcallRemove : Kept s!"        return this.service.remove({controllerKey e});" :=
    kept_keyed e (by decide) (by decide)
  unfold changingBlocks
  simp only [List.flatten_cons, List.flatten_nil, List.append_nil, List.cons_append, List.nil_append,
    List.forall_mem_cons]
  exact ⟨kept_empty, hpost.kept, hcreate, hcall.kept, hclose.kept, kept_empty, hput.kept, hupdate,
    hcallUpdate, hclose.kept, kept_empty, hdelete.kept, hremove, hcallRemove, hclose.kept,
    List.forall_mem_nil _⟩

/-- A controller begins with an import of its decorators, and what stands behind it before the methods is
    kept. -/
theorem exists_kept_controllerFront {services dtos : String} {e : Entity}
    (hstatements : ∀ s ∈ controllerStatements p services dtos e, s.Plain ∧ s.clause.Substantial)
    (hname : Quotable (p.entityBase e.name)) (htable : Quotable e.table) :
    ∃ ls, controllerFront p services dtos e =
        (taken "Controller,Get,Post,Put,Delete,Body,Param" "@nestjs/common").line :: ls ∧
      ∀ l ∈ ls, Kept l := by
  have hfirst := importLine_taken "Controller,Get,Post,Put,Delete,Body,Param" "@nestjs/common"
  have hservice := importLine_localImport p (p.serviceName e.name)
    (services ++ "/" ++ p.fileName .service e.fileName)
  have hdto := importLine_localImport p (p.dtoName e.name) (dtos ++ "/" ++ p.fileName .dto e.fileName)
  have hdecorator : Kept s!"@Controller(\"{e.table}\")" :=
    (Closes.append (by decide) (braceless_append.mpr ⟨by decide, braceless_of_quotable htable⟩)).kept
  have hhead : Kept (classHead p (p.controllerName e.name) ++ " \x7b") :=
    (standing_headLine p (a := .controller) (by decide) rfl hname).kept
  have hline : ∀ s ∈ controllerStatements p services dtos e, Kept s.line :=
    fun s hs => kept_line (hstatements s hs).1 (hstatements s hs).2
  unfold controllerStatements at hline
  rw [List.forall_mem_cons, List.forall_mem_singleton, ← hservice, ← hdto] at hline
  obtain ⟨hserviceLine, hdtoLine⟩ := hline
  unfold controllerFront
  rw [← hfirst]
  refine ⟨_, rfl, ?_⟩
  simp only [List.forall_mem_cons]
  exact ⟨hserviceLine, hdtoLine, kept_empty, hdecorator, hhead, List.forall_mem_nil _⟩

/-- A converted name holds no brace and no break, and one that is left as it is only if it did before. -/
theorem braceless_propertyName {raw : String} (h : p.propertyCase = .verbatim → Braceless raw) :
    Braceless (p.propertyName raw) := by
  refine Naming.forall_mem_convert (fun c hchar => ?_) h
  refine ⟨?_, ?_, ?_⟩ <;> rintro rfl <;> exact absurd hchar (by decide)

/-- **All lines of a controller but the first are kept**, if no name of the schema breaks out of them. -/
theorem exists_kept_controllerLines {services dtos : String} {e : Entity} {relations : List Relation}
    (hstatements : ∀ s ∈ controllerStatements p services dtos e, s.Plain ∧ s.clause.Substantial)
    (hname : Quotable (p.entityBase e.name)) (htable : Quotable e.table)
    (hfields : p.propertyCase = .verbatim → ∀ r ∈ relations, Braceless r.field) :
    ∃ ls, controllerLines p services dtos e relations =
        (taken "Controller,Get,Post,Put,Delete,Body,Param" "@nestjs/common").line :: ls ∧
      ∀ l ∈ ls, Kept l := by
  obtain ⟨front, hfront, hkept⟩ := exists_kept_controllerFront hstatements hname htable
  have hsuffixed : ∀ suffix : String, Quotable suffix → Braceless (p.entityBase e.name ++ suffix) :=
    fun suffix hsuffix => braceless_of_quotable (hname.append hsuffix)
  have hconstructor : Kept (constructorLine (p.serviceName e.name)) :=
    kept_constructorLine (hsuffixed "Service" (by decide))
  have hroutes : ∀ l ∈ (relations.map (routeLines p (controllerKey e))).flatten, Kept l := by
    rw [← List.flatMap_def]
    intro l hl
    obtain ⟨r, hr, hl⟩ := List.mem_flatMap.mp hl
    refine kept_routeLines ?_ ?_ e l hl
    · exact braceless_propertyName fun hcase => hfields hcase r hr
    · exact braceless_propertyName fun hcase => braceless_append.mpr ⟨by decide, hfields hcase r hr⟩
  have hchanging := kept_changingBlocks (p := p) (e := e) (hsuffixed "Dto" (by decide))
  have hclose : Closes "\x7d" := by decide
  rw [controllerLines_eq_blocks, hfront, List.flatten_append, List.flatten_append, List.cons_append,
    List.cons_append]
  refine ⟨_, rfl, ?_⟩
  simp only [List.forall_mem_append, List.forall_mem_cons]
  exact ⟨⟨hkept, hconstructor, ⟨kept_findingBlocks e, hroutes⟩, hchanging⟩, hclose.kept,
    List.forall_mem_nil _⟩

end Scaffold.Source
