import Mathlib.Data.List.Forall2
import Scaffold.Proofs.Naming.Fronted
import Scaffold.Proofs.Source.Members

/-!
# `Scaffold.Proofs.Source.Methods` — the methods that controllers declare

A controller is a class with five methods of its own, and one more for each of its relations. Each method
is a blank line, a decorator, a line that opens it, lines that are indented further, and a closing brace.
`HasMethods` says so of the lines of a file, with the names of the methods in order, and holds of every
controller (`hasMethods_controllerLines`).

The methods of relations are told apart as their properties are. One of them can have the name of one of
the five, though: `find_all` and `find_one` in camel case are what two of them are called
(`routeMethod_mem_iff`). That is the only way in which two methods of a controller get the same name
(`nodup_methodNames_iff`).

## Contents
- **Names.** `fixedMethods`, `routeMethod`, `methodNames`, `Clashes`, `routeMethod_mem_iff`,
  `nodup_methodNames_iff`.
- **Declarations.** `methodLine`, `DeclaresMethod`, `HasMethods`, `hasMethods_controllerLines`.
- **Reading.** `method?`, `methods`, `Callable`, `method?_methodLine`, `methods_hasMethods`.
-/

namespace Scaffold.Source

open Naming (CaseStyle Policy)
open Schema (Entity Relation)
open Text (breakOn dropPat? isAlnum linesOf toString_text)

/-! ## Names -/

/-- The methods that every controller has. -/
def fixedMethods : List String := ["findAll", "findOne", "create", "update", "remove"]

/-- The method that finds what a relation leads to. -/
def routeMethod (p : Policy) (r : Relation) : String := p.propertyName ("find_" ++ r.field)

/-- The methods of a controller, in order. -/
def methodNames (p : Policy) (relations : List Relation) : List String :=
  ["findAll", "findOne"] ++ relations.map (routeMethod p) ++ ["create", "update", "remove"]

/-- A relation whose method is called as one of those that every controller has. -/
def Clashes (p : Policy) (r : Relation) : Prop :=
  p.propertyCase = .camel ∧ (p.propertyName r.field = "all" ∨ p.propertyName r.field = "one")

instance (p : Policy) (r : Relation) : Decidable (Clashes p r) := by
  unfold Clashes
  infer_instance

variable {p : Policy}

/-- Two relations have methods of one name exactly if they have properties of one name. -/
theorem routeMethod_eq_iff (p : Policy) (r s : Relation) :
    routeMethod p r = routeMethod p s ↔ p.propertyName r.field = p.propertyName s.field :=
  Naming.convert_find_eq_iff _ _ _

/-- What begins with a capital, or with the small word and no letter behind it, is not one of the five. -/
theorem not_mem_fixedMethods {name : String} {r : List Char} (h : name.toList = 'F' :: r ∨
    name.toList = "find".toList ++ r ∧ ∀ c ∈ r.head?, isAlnum c = false) : name ∉ fixedMethods := by
  intro hmem
  simp only [fixedMethods, List.mem_cons, List.not_mem_nil, or_false] at hmem
  rcases h with h | ⟨h, hr⟩
  · rcases hmem with rfl | rfl | rfl | rfl | rfl <;> exact absurd (List.cons.inj h).1 (by decide)
  · rcases hmem with rfl | rfl | rfl | rfl | rfl
    · have hword : "find".toList ++ "All".toList = "find".toList ++ r := h
      obtain rfl := List.append_cancel_left hword
      exact absurd (hr 'A' rfl) (by decide)
    · have hword : "find".toList ++ "One".toList = "find".toList ++ r := h
      obtain rfl := List.append_cancel_left hword
      exact absurd (hr 'O' rfl) (by decide)
    all_goals exact absurd (List.cons.inj h).1 (by decide)

/-- In camel case only two of the five begin with the word that stands before a relation. -/
theorem routeMethod_mem_iff_camel (hcase : p.propertyCase = .camel) (r : Relation) :
    routeMethod p r ∈ fixedMethods ↔ routeMethod p r = "findAll" ∨ routeMethod p r = "findOne" := by
  have hword : ∃ t, (routeMethod p r).toList = "find".toList ++ t := by
    unfold routeMethod Policy.propertyName
    rw [hcase]
    exact Naming.exists_convert_find_camel r.field
  obtain ⟨t, ht⟩ := hword
  have hothers : ∀ name ∈ ["create", "update", "remove"], routeMethod p r ≠ name := by
    intro name hname heq
    rw [heq] at ht
    simp only [List.mem_cons, List.not_mem_nil, or_false] at hname
    rcases hname with rfl | rfl | rfl <;> exact absurd (List.cons.inj ht).1 (by decide)
  constructor
  · intro h
    rcases List.mem_cons.mp h with h | h
    · exact .inl h
    · rcases List.mem_cons.mp h with h | h
      · exact .inr h
      · exact absurd rfl (hothers _ h)
  · rintro (h | h) <;> rw [h] <;> decide

/-- **A method of a relation is called as one of the five** exactly if names are in camel case, and the
    property of the relation is called `all` or `one`. -/
theorem routeMethod_mem_iff (p : Policy) (r : Relation) :
    routeMethod p r ∈ fixedMethods ↔ Clashes p r := by
  by_cases hcase : p.propertyCase = .camel
  · have hfind : ∀ word, routeMethod p r = p.propertyName ("find_" ++ word) ↔
        p.propertyName r.field = p.propertyName word := fun word =>
      Naming.convert_find_eq_iff _ _ _
    have hall : p.propertyName ("find_" ++ "all") = "findAll" ∧ p.propertyName "all" = "all" := by
      unfold Policy.propertyName
      rw [hcase]
      decide +kernel
    have hone : p.propertyName ("find_" ++ "one") = "findOne" ∧ p.propertyName "one" = "one" := by
      unfold Policy.propertyName
      rw [hcase]
      decide +kernel
    rw [routeMethod_mem_iff_camel hcase, Clashes, and_iff_right hcase, ← hall.1, ← hone.1, hfind, hfind,
      hall.2, hone.2]
  · obtain ⟨t, ht⟩ := Naming.exists_convert_find hcase r.field
    exact iff_of_false (not_mem_fixedMethods ht) fun h => hcase h.1

/-- **The methods of a controller are distinct** exactly if the properties of its relations are, and no
    relation clashes. -/
theorem nodup_methodNames_iff (p : Policy) (relations : List Relation) :
    (methodNames p relations).Nodup ↔
      (relations.map fun r => p.propertyName r.field).Nodup ∧ ∀ r ∈ relations, ¬ Clashes p r := by
  have hperm : (methodNames p relations).Perm (fixedMethods ++ relations.map (routeMethod p)) := by
    unfold methodNames
    rw [List.append_assoc]
    exact List.perm_append_comm.append_left ["findAll", "findOne"]
  have hfixed : fixedMethods.Nodup := by decide
  have hroutes : (relations.map (routeMethod p)).Nodup ↔
      (relations.map fun r => p.propertyName r.field).Nodup := by
    unfold List.Nodup
    rw [List.pairwise_map, List.pairwise_map]
    exact List.Pairwise.iff fun r s => not_congr (routeMethod_eq_iff p r s)
  have hapart : (∀ a ∈ fixedMethods, ∀ b ∈ relations.map (routeMethod p), a ≠ b) ↔
      ∀ r ∈ relations, ¬ Clashes p r := by
    constructor
    · intro h r hr hclash
      exact h _ ((routeMethod_mem_iff p r).mpr hclash) _ (List.mem_map_of_mem hr) rfl
    · rintro h a ha b hb rfl
      obtain ⟨r, hr, rfl⟩ := List.mem_map.mp hb
      exact h r hr ((routeMethod_mem_iff p r).mp ha)
  rw [hperm.nodup_iff, List.nodup_append, and_iff_right hfixed, hroutes, hapart]

/-! ## Declarations -/

/-- The line that opens a method. -/
def methodLine (keyword name parameters : String) : String :=
  "    " ++ keyword ++ name ++ "(" ++ parameters ++ ") \x7b"

/-- The words that may stand before the name of a method. -/
def methodKeywords : List String := ["", "async "]

/-- A line that is indented as the body of a method. -/
def IsBody (l : String) : Prop := "        ".toList <+: l.toList

instance (l : String) : Decidable (IsBody l) :=
  inferInstanceAs (Decidable ("        ".toList <+: l.toList))

theorem IsBody.append {a : String} (h : IsBody a) (b : String) : IsBody (a ++ b) := by
  unfold IsBody
  rw [String.toList_append]
  exact h.trans (List.prefix_append _ _)

/-- **Lines declare a method**: below a blank line and a decorator it is opened, and its body is indented
    further. -/
inductive DeclaresMethod (name : String) : Lines → Prop
  | intro {decorator keyword parameters : String} {body : Lines} (hdecorator : IsDecorator decorator)
      (hkeyword : keyword ∈ methodKeywords) (hbody : ∀ l ∈ body, IsBody l) :
      DeclaresMethod name
        ("" :: decorator :: methodLine keyword name parameters :: (body ++ ["    \x7d"]))

/-- The line of a constructor that takes a service and does nothing else. -/
def constructorLine (service : String) : String :=
  s!"    constructor(private readonly service: {service}) \x7b\x7d"

/-- **The lines of a file are those of a class with methods of some names**: lines that are not indented,
    a constructor, the methods in order, and a closing brace. -/
inductive HasMethods : Lines → List String → Prop
  | intro {front : Lines} {service : String} {blocks : List Lines} {names : List String}
      (hfront : ∀ l ∈ front, l.toList.head? ≠ some ' ')
      (hblocks : List.Forall₂ DeclaresMethod names blocks) :
      HasMethods (front ++ constructorLine service :: blocks.flatten ++ ["\x7d"]) names

/-- A method that is known by its body. -/
theorem DeclaresMethod.of_body {name : String} (body : Lines) {decorator keyword parameters line : String}
    (hdecorator : IsDecorator decorator) (hkeyword : keyword ∈ methodKeywords)
    (hline : line = methodLine keyword name parameters) (hbody : ∀ l ∈ body, IsBody l) :
    DeclaresMethod name ("" :: decorator :: line :: (body ++ ["    \x7d"])) :=
  hline ▸ .intro hdecorator hkeyword hbody

/-- The line that opens the method of a relation. -/
theorem asyncLine_eq (name : String) :
    "    async " ++ name ++ "(@Param(\"id\") id: string) \x7b" =
      methodLine "async " name "@Param(\"id\") id: string" := by
  have hfront : "    async " = "    " ++ "async " := rfl
  have hback : "(@Param(\"id\") id: string) \x7b" =
    "(" ++ "@Param(\"id\") id: string" ++ ") \x7b" := rfl
  rw [methodLine, hfront, hback]
  simp only [String.append_assoc]

theorem declaresMethod_routeLines (p : Policy) (key : String) (r : Relation) :
    DeclaresMethod (routeMethod p r) (routeLines p key r) := by
  have hdecorator : IsDecorator s!"    @Get(\":id/{p.propertyName r.field}\")" :=
    (IsDecorator.append (by decide) _).append _
  have hasking : IsBody (askingLine key (p.propertyName r.field)) :=
    (((IsBody.append (by decide) _).append _).append _).append _
  have hreading : IsBody (readingLine (p.propertyName r.field)) :=
    (IsBody.append (by decide) _).append _
  exact .of_body [askingLine key (p.propertyName r.field), readingLine (p.propertyName r.field)]
    hdecorator (by decide) (asyncLine_eq _)
    (List.forall_mem_cons.mpr ⟨hasking, List.forall_mem_singleton.mpr hreading⟩)

/-- A method whose body is one line. -/
theorem declaresMethod_of_call {name parameters decorator line call : String}
    (hdecorator : IsDecorator decorator) (hline : line = methodLine "" name parameters)
    (hcall : IsBody call) : DeclaresMethod name ["", decorator, line, call, "    \x7d"] :=
  .of_body [call] hdecorator (by decide) hline (List.forall_mem_singleton.mpr hcall)

/-- A line that is known up to its last parameter. -/
theorem methodLine_append {front name parameters : String}
    (h : front = "    " ++ "" ++ name ++ "(" ++ parameters) (last : String) :
    front ++ last ++ ") \x7b" = methodLine "" name (parameters ++ last) := by
  rw [h, methodLine]
  simp only [String.append_assoc]

/-- The lines of a controller before its methods, but for the constructor. -/
def controllerFront (p : Policy) (services dtos : String) (e : Entity) : Lines :=
  [importLine "\x7bController,Get,Post,Put,Delete,Body,Param\x7d" "@nestjs/common",
   importLine (p.localImport (p.serviceName e.name))
     (services ++ "/" ++ p.fileName .service e.fileName),
   importLine (p.localImport (p.dtoName e.name)) (dtos ++ "/" ++ p.fileName .dto e.fileName),
   "",
   s!"@Controller(\"{e.table}\")",
   classHead p (p.controllerName e.name) ++ " \x7b"]

/-- The methods that find entities. -/
def findingBlocks (e : Entity) : List Lines :=
  [["",
    "    @Get()",
    "    findAll() \x7b",
    "        return this.service.findAll();",
    "    \x7d"],
   ["",
    "    @Get(\":id\")",
    "    findOne(@Param(\"id\") id: string) \x7b",
    s!"        return this.service.findOne({controllerKey e});",
    "    \x7d"]]

/-- The methods that change entities. -/
def changingBlocks (p : Policy) (e : Entity) : List Lines :=
  [["",
    "    @Post()",
    s!"    create(@Body() dto: {p.dtoName e.name}) \x7b",
    "        return this.service.create(dto);",
    "    \x7d"],
   ["",
    "    @Put(\":id\")",
    s!"    update(@Param(\"id\") id: string, @Body() dto: {p.dtoName e.name}) \x7b",
    s!"        return this.service.update({controllerKey e}, dto);",
    "    \x7d"],
   ["",
    "    @Delete(\":id\")",
    "    remove(@Param(\"id\") id: string) \x7b",
    s!"        return this.service.remove({controllerKey e});",
    "    \x7d"]]

/-- A controller is made of its front, a constructor and methods. -/
theorem controllerLines_eq_blocks (p : Policy) (services dtos : String) (e : Entity)
    (relations : List Relation) :
    controllerLines p services dtos e relations =
      controllerFront p services dtos e ++ constructorLine (p.serviceName e.name) ::
        (findingBlocks e ++ relations.map (routeLines p (controllerKey e)) ++
          changingBlocks p e).flatten ++ ["\x7d"] := by
  rw [List.flatten_append, List.flatten_append, ← List.flatMap_def]
  unfold controllerLines
  simp only [List.append_assoc, List.cons_append, List.nil_append]
  rfl

/-- The line of the key that is handed over to the service. -/
theorem isBody_keyed (e : Entity) {front : String} (h : IsBody front) (back : String) :
    IsBody (front ++ controllerKey e ++ back) := (h.append _).append _

theorem declares_findingBlocks (e : Entity) :
    List.Forall₂ DeclaresMethod ["findAll", "findOne"] (findingBlocks e) := by
  have hfindAll : "    findAll() \x7b" = methodLine "" "findAll" "" := rfl
  have hfindOne : "    findOne(@Param(\"id\") id: string) \x7b" =
    methodLine "" "findOne" "@Param(\"id\") id: string" := rfl
  refine .cons ?_ (.cons ?_ .nil)
  · exact declaresMethod_of_call (by decide) hfindAll (by decide)
  · exact declaresMethod_of_call (by decide) hfindOne (isBody_keyed e (by decide) _)

theorem declares_changingBlocks (p : Policy) (e : Entity) :
    List.Forall₂ DeclaresMethod ["create", "update", "remove"] (changingBlocks p e) := by
  have hcreate : "    create(@Body() dto: " = "    " ++ "" ++ "create" ++ "(" ++ "@Body() dto: " := rfl
  have hupdate : "    update(@Param(\"id\") id: string, @Body() dto: " =
    "    " ++ "" ++ "update" ++ "(" ++ "@Param(\"id\") id: string, @Body() dto: " := rfl
  have hremove : "    remove(@Param(\"id\") id: string) \x7b" =
    methodLine "" "remove" "@Param(\"id\") id: string" := rfl
  refine .cons ?_ (.cons ?_ (.cons ?_ .nil))
  · exact declaresMethod_of_call (by decide) (methodLine_append hcreate _) (by decide)
  · exact declaresMethod_of_call (by decide) (methodLine_append hupdate _)
      (isBody_keyed e (by decide) _)
  · exact declaresMethod_of_call (by decide) hremove (isBody_keyed e (by decide) _)

theorem not_indented_controllerFront (p : Policy) (services dtos : String) (e : Entity) :
    ∀ l ∈ controllerFront p services dtos e, l.toList.head? ≠ some ' ' := by
  have hdecorator : s!"@Controller(\"{e.table}\")".toList.head? ≠ some ' ' := by
    simp [toString_text]
  unfold controllerFront
  simp only [List.forall_mem_cons]
  exact ⟨not_indented_importLine _ _, not_indented_importLine _ _, not_indented_importLine _ _,
    by decide, hdecorator, not_indented_classHead _ _, List.forall_mem_nil _⟩

/-- **A controller has its methods**, in order. -/
theorem hasMethods_controllerLines (p : Policy) (services dtos : String) (e : Entity)
    (relations : List Relation) :
    HasMethods (controllerLines p services dtos e relations) (methodNames p relations) := by
  have hroutes : List.Forall₂ DeclaresMethod (relations.map (routeMethod p))
      (relations.map (routeLines p (controllerKey e))) :=
    List.forall₂_map_left_iff.mpr (List.forall₂_map_right_iff.mpr
      (List.forall₂_same.mpr fun r _ => declaresMethod_routeLines p _ r))
  rw [controllerLines_eq_blocks]
  exact .intro (not_indented_controllerFront p services dtos e)
    (List.rel_append (List.rel_append (declares_findingBlocks e) hroutes)
      (declares_changingBlocks p e))

/-! ## Reading -/

/-- What stands behind the last blank. -/
def lastWord (cs : List Char) : List Char := (cs.reverse.takeWhile (· ≠ ' ')).reverse

theorem lastWord_append {a b : List Char} (hb : ' ' ∉ b) : lastWord (a ++ ' ' :: b) = b := by
  have hall : ∀ c ∈ b.reverse, (c ≠ ' ' : Bool) = true := by
    intro c hc
    rw [decide_eq_true_eq]
    rintro rfl
    exact hb (List.mem_reverse.mp hc)
  unfold lastWord
  rw [List.reverse_append, List.reverse_cons, List.append_assoc,
    List.takeWhile_append_of_pos hall]
  simp

theorem lastWord_eq_self {b : List Char} (hb : ' ' ∉ b) : lastWord b = b := by
  unfold lastWord
  rw [List.takeWhile_eq_self_iff.mpr, List.reverse_reverse]
  intro c hc
  rw [decide_eq_true_eq]
  rintro rfl
  exact hb (List.mem_reverse.mp hc)

/-- The method that a line opens: its name is the word before a parenthesis, and a body follows. -/
def method? (line : List Char) : Option String := do
  let r ← dropPat? "    ".toList line
  if r.head? = some '@' ∨ r.head? = some ' ' then none
  else
    let (front, parameters) ← breakOn '(' r
    let _ ← dropEnd? ") \x7b".toList parameters
    return String.ofList (lastWord front)

/-- The methods that the lines of a text open. -/
def methods (text : String) : List String := (linesOf text.toList).filterMap method?

/-- Characters that end or change what is read as the name of a method. -/
def callMarks : List Char := ['(', ' ', '@']

/-- A name that is read back from the line that opens its method. -/
def Callable (name : String) : Prop := ∀ c ∈ name.toList, c ∉ callMarks

instance (name : String) : Decidable (Callable name) :=
  List.decidableBAll (fun c => c ∉ callMarks) name.toList

theorem callable_append {a b : String} : Callable (a ++ b) ↔ Callable a ∧ Callable b := by
  unfold Callable
  rw [String.toList_append]
  exact List.forall_mem_append

/-- **The method of a relation is callable** unless names are left as they are and this one was not
    before. -/
theorem callable_routeMethod {r : Relation} (h : p.propertyCase = .verbatim → Callable r.field) :
    Callable (routeMethod p r) :=
  Naming.forall_mem_convert (fun _ hc => Naming.not_mem_of_isNameChar (by decide) hc)
    fun hcase => callable_append.mpr ⟨by decide, h hcase⟩

theorem callable_methodNames {relations : List Relation}
    (h : p.propertyCase = .verbatim → ∀ r ∈ relations, Callable r.field) :
    ∀ n ∈ methodNames p relations, Callable n := by
  have hroutes : ∀ n ∈ relations.map (routeMethod p), Callable n :=
    List.forall_mem_map.mpr fun r hr => callable_routeMethod fun hcase => h hcase r hr
  unfold methodNames
  rw [List.forall_mem_append, List.forall_mem_append]
  exact ⟨⟨by decide, hroutes⟩, by decide⟩

/-- What is read from a line that is indented once, up to its parenthesis. -/
theorem method?_of_front {front : List Char} (hopen : '(' ∉ front) (hat : front.head? ≠ some '@')
    (hblank : front.head? ≠ some ' ') (parameters : List Char) :
    method? ("    ".toList ++ (front ++ '(' :: (parameters ++ ") \x7b".toList))) =
      some (String.ofList (lastWord front)) := by
  have hhead : ¬ ((front ++ '(' :: (parameters ++ ") \x7b".toList)).head? = some '@' ∨
      (front ++ '(' :: (parameters ++ ") \x7b".toList)).head? = some ' ') := by
    rw [List.head?_append]
    cases hfront : front.head? with
    | none => simp
    | some c =>
        rw [hfront] at hat hblank
        exact not_or.mpr ⟨hat, hblank⟩
  unfold method?
  rw [dropPat?_append]
  simp only [bind, Option.bind, if_neg hhead, breakOn_append hopen, dropEnd?_append, pure]

/-- **A method is read from the line that opens it.** -/
theorem method?_methodLine {keyword name : String} (hkeyword : keyword ∈ methodKeywords)
    (hname : Callable name) (parameters : String) :
    method? (methodLine keyword name parameters).toList = some name := by
  have hopen : '(' ∉ name.toList := fun hm => hname _ hm (by decide)
  have hblank : ' ' ∉ name.toList := fun hm => hname _ hm (by decide)
  have hat : '@' ∉ name.toList := fun hm => hname _ hm (by decide)
  have hline : (methodLine keyword name parameters).toList = "    ".toList ++
      ((keyword.toList ++ name.toList) ++ '(' :: (parameters.toList ++ ") \x7b".toList)) := by
    simp [methodLine]
  rw [hline]
  simp only [methodKeywords, List.mem_cons, List.not_mem_nil, or_false] at hkeyword
  rcases hkeyword with rfl | rfl
  · rw [String.toList_empty, List.nil_append, method?_of_front hopen
      (fun h => hat (List.mem_of_head? h)) (fun h => hblank (List.mem_of_head? h)),
      lastWord_eq_self hblank, String.ofList_toList]
  · have hasync : "async ".toList ++ name.toList = "async".toList ++ ' ' :: name.toList := rfl
    have hfree : '(' ∉ "async".toList ++ ' ' :: name.toList := by
      rw [List.mem_append, List.mem_cons, not_or, not_or]
      exact ⟨by decide, by decide, hopen⟩
    have hhead : ("async".toList ++ ' ' :: name.toList).head? = some 'a' := rfl
    rw [hasync, method?_of_front hfree (by rw [hhead]; decide) (by rw [hhead]; decide),
      lastWord_append hblank, String.ofList_toList]

theorem method?_of_isDecorator {l : String} (h : IsDecorator l) : method? l.toList = none := by
  obtain ⟨r, hdrop⟩ := dropPat?_of_isDecorator h
  unfold method?
  rw [hdrop]
  rfl

theorem method?_of_not_indented {l : String} (h : l.toList.head? ≠ some ' ') :
    method? l.toList = none := by
  unfold method?
  rw [dropPat?_of_not_indented h]
  rfl

/-- No statement opens a method. -/
theorem method?_line (s : Statement) : method? s.line.toList = none := by
  refine method?_of_not_indented ?_
  unfold Statement.line Clause.front
  cases s.clause <;> simp

theorem method?_of_isBody {l : String} (h : IsBody l) : method? l.toList = none := by
  obtain ⟨r, hr⟩ := h
  have hfront : "        ".toList = "    ".toList ++ "    ".toList := by decide
  unfold method?
  rw [← hr, hfront, List.append_assoc, dropPat?_append]
  rfl

/-- A line that closes its braces opens no method. -/
theorem method?_constructorLine (service : String) :
    method? (constructorLine service).toList = none := by
  have hline : (constructorLine service).toList = "    constructor".toList ++
      '(' :: (("private readonly service: ".toList ++ service.toList ++ ") \x7b".toList) ++ ['\x7d']) := by
    have hfront : "    constructor(private readonly service: ".toList =
      "    constructor".toList ++ '(' :: "private readonly service: ".toList := by decide
    have hback : ") \x7b\x7d".toList = ") \x7b".toList ++ ['\x7d'] := by decide
    unfold constructorLine
    simp only [toString_text, String.toList_append, hfront, hback, List.append_assoc, List.cons_append]
  have hindent : "    constructor".toList = "    ".toList ++ "constructor".toList := by decide
  have hend : ∀ u : List Char, dropEnd? ") \x7b".toList (u ++ ['\x7d']) = none := by
    intro u
    unfold dropEnd?
    rw [List.reverse_append]
    rfl
  have hopen : '(' ∉ "constructor".toList := by decide
  unfold method?
  rw [hline, hindent, List.append_assoc, dropPat?_append]
  simp only [bind, Option.bind, breakOn_append hopen, hend, ite_self]

/-- The one method that a block declares is read from its lines. -/
theorem DeclaresMethod.filterMap {name : String} {ls : Lines} (h : DeclaresMethod name ls)
    (hname : Callable name) : ls.filterMap (fun l => method? l.toList) = [name] := by
  cases h with
  | @intro decorator keyword parameters body hdecorator hkeyword hbody =>
      have hnone : body.filterMap (fun l => method? l.toList) = [] :=
        List.filterMap_eq_nil_iff.mpr fun l hl => method?_of_isBody (hbody l hl)
      rw [List.filterMap_cons_none rfl]
      simp only [List.filterMap_cons, method?_of_isDecorator hdecorator,
        method?_methodLine hkeyword hname, List.filterMap_append, hnone]
      rfl

/-- **The methods of a class are read from its lines**, if they are callable. -/
theorem methods_hasMethods {ls : Lines} {names : List String} (h : HasMethods ls names)
    (hnames : ∀ n ∈ names, Callable n) : ls.filterMap (fun l => method? l.toList) = names := by
  cases h with
  | @intro front service blocks names hfront hblocks =>
      have hnone : front.filterMap (fun l => method? l.toList) = [] :=
        List.filterMap_eq_nil_iff.mpr fun l hl => method?_of_not_indented (hfront l hl)
      have hcallable := (List.forall₂_and_left names blocks).mpr ⟨hnames, hblocks⟩
      have hmethods := filterMap_flatten (hcallable.imp fun _ _ h => h.2.filterMap h.1)
      have hclose : method? "\x7d".toList = none := rfl
      simp only [List.filterMap_append, hnone, List.nil_append, List.filterMap_cons,
        method?_constructorLine, hmethods, hclose, List.filterMap_nil, List.append_nil]

end Scaffold.Source
