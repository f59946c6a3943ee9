import Scaffold.Proofs.Naming.Converted
import Scaffold.Proofs.Text.Break
import Scaffold.Source.Lines

/-!
# `Scaffold.Proofs.Source.Statement` — reading statements back from a text

What a file imports and declares is read from its text, without regard to how the text was made: the
statements are those of the lines at its front (`imports`), and a class is declared by a line of its
own (`declarations`). A statement that is written down is read back (`statement?_line`), and so is the
declaration of a class (`declaration?_classHead`).

## Contents
- **Cutting.** `dropEnd?`, `between?`.
- **Statements.** `Clause`, `Statement`, `Statement.line`, `statement?`, `statement?_line`.
- **Files.** `imports`, `references`, `leading_append`.
- **Declarations.** `declaration?`, `declarations`, `declaration?_classHead`.
-/

namespace Scaffold.Source

open Naming (Policy Quotable)
open Text (OneLine breakOn dropPat? linesOf)

/-! ## Cutting -/

/-- What stands before `pat` at the end of a text, if `pat` is there. -/
def dropEnd? (pat text : List Char) : Option (List Char) :=
  (dropPat? pat.reverse text.reverse).map List.reverse

/-- What stands between `front` and `back`, if a text begins and ends with them. -/
def between? (front back text : List Char) : Option (List Char) :=
  (dropPat? front text).bind (dropEnd? back)

theorem dropPat?_append (pat text : List Char) : dropPat? pat (pat ++ text) = some text := by
  induction pat with
  | nil => cases text <;> rfl
  | cons c pat ih => rw [List.cons_append, dropPat?, if_pos rfl, ih]

theorem dropEnd?_append (pat text : List Char) : dropEnd? pat (text ++ pat) = some text := by
  unfold dropEnd?
  rw [List.reverse_append, dropPat?_append, Option.map_some, List.reverse_reverse]

theorem between?_append (front back text : List Char) :
    between? front back (front ++ text ++ back) = some text := by
  unfold between?
  rw [List.append_assoc, dropPat?_append, Option.bind_some, dropEnd?_append]

theorem breakOn_append {c : Char} {a : List Char} (h : c ∉ a) (b : List Char) :
    breakOn c (a ++ c :: b) = some (a, b) := by
  induction a with
  | nil => rw [List.nil_append, breakOn, if_pos rfl]
  | cons d a ih =>
      have hd : d ≠ c := fun e => h (e ▸ List.mem_cons_self)
      have ha : c ∉ a := fun m => h (List.mem_cons_of_mem _ m)
      rw [List.cons_append, breakOn, if_neg hd, ih ha]
      rfl

/-! ## Statements -/

/-- What a statement takes from another file. -/
inductive Clause
  /-- The default export, imported under a name. -/
  | default (name : String)
  /-- Named exports, as they stand between braces. -/
  | braced (names : String)
  /-- The default export, exported again under a name. -/
  | defaultAs (name : String)
  /-- All named exports, exported again. -/
  | everything
  deriving DecidableEq, Repr

namespace Clause

/-- The clause that imports a class, which is a default export or not. -/
def importing (isDefault : Bool) (name : String) : Clause :=
  if isDefault then .default name else .braced name

/-- The clause that exports a class again. -/
def exporting (isDefault : Bool) (name : String) : Clause :=
  if isDefault then .defaultAs name else .everything

/-- The name that a clause speaks of. -/
def symbol? : Clause → Option String
  | .default name => some name
  | .braced names => some names
  | .defaultAs name => some name
  | .everything => none

/-- The front of a statement, up to the path. -/
def front : Clause → String
  | .default name => "import " ++ name ++ " from "
  | .braced names => "import \x7b" ++ names ++ "\x7d from "
  | .defaultAs name => "export \x7b default as " ++ name ++ " \x7d from "
  | .everything => "export * from "

end Clause

/-- A statement that takes something from another file. -/
structure Statement where
  clause : Clause
  path : String
  deriving DecidableEq, Repr

namespace Statement

/-- The statement as a line. -/
def line (s : Statement) : String := s.clause.front ++ "\"" ++ s.path ++ "\";"

/-- The statement speaks of a file that is told by the way to it. -/
def isLocal (s : Statement) : Bool := s.path.toList.head? = some '.'

/-- Neither the name nor the path of the statement holds a mark. -/
structure Plain (s : Statement) : Prop where
  symbol : ∀ name ∈ s.clause.symbol?, Quotable name
  path : Quotable s.path

end Statement

/-- The clause that a front gives. -/
def clause? (cs : List Char) : Option Clause :=
  if cs = "export * from ".toList then some .everything
  else match between? "export \x7b default as ".toList " \x7d from ".toList cs with
    | some name => some (.defaultAs (String.ofList name))
    | none => match between? "import \x7b".toList "\x7d from ".toList cs with
      | some names => some (.braced (String.ofList names))
      | none => (between? "import ".toList " from ".toList cs).map fun name =>
          .default (String.ofList name)

/-- The statement that a line is. -/
def statement? (line : List Char) : Option Statement := do
  let (front, r) ← breakOn '\x22' line
  let (path, r) ← breakOn '\x22' r
  let clause ← clause? front
  if r = [';'] then some ⟨clause, String.ofList path⟩ else none

/-- What begins as an import is no export. -/
theorem between?_export (back text : List Char) :
    between? "export \x7b default as ".toList back ("import ".toList ++ text) = none := by
  have hdrop : dropPat? "export \x7b default as ".toList ("import ".toList ++ text) = none := by
    simp [dropPat?]
  unfold between?
  rw [hdrop]
  rfl

theorem ne_everything (text : List Char) : "import ".toList ++ text ≠ "export * from ".toList := by
  simp

theorem clause?_front {c : Clause} (h : ∀ name ∈ c.symbol?, Quotable name) :
    clause? c.front.toList = some c := by
  cases c with
  | everything => decide
  | defaultAs name =>
      have hread := between?_append "export \x7b default as ".toList " \x7d from ".toList name.toList
      unfold clause? Clause.front
      rw [String.toList_append, String.toList_append, hread, if_neg (by simp)]
      simp
  | braced names =>
      have hread := between?_append "import \x7b".toList "\x7d from ".toList names.toList
      have hfront : "import \x7b".toList ++ names.toList ++ "\x7d from ".toList =
          "import ".toList ++ ('\x7b' :: (names.toList ++ "\x7d from ".toList)) := by simp
      unfold clause? Clause.front
      rw [String.toList_append, String.toList_append, hread, hfront, between?_export,
        if_neg (ne_everything _)]
      simp
  | default name =>
      have hread := between?_append "import ".toList " from ".toList name.toList
      -- a name that begins with no brace is not read as names between braces
      have hbraced : between? "import \x7b".toList "\x7d from ".toList
          ("import ".toList ++ name.toList ++ " from ".toList) = none := by
        have hdrop : dropPat? "import \x7b".toList
            ("import ".toList ++ name.toList ++ " from ".toList) = none := by
          cases hname : name.toList with
          | nil => simp [dropPat?]
          | cons d r =>
              have hd : '\x7b' ≠ d := by
                rintro rfl
                exact h name rfl '\x7b' (hname ▸ List.mem_cons_self) (by decide)
              simp [dropPat?, hd]
        unfold between?
        rw [hdrop]
        rfl
      unfold clause? Clause.front
      rw [String.toList_append, String.toList_append, hread, hbraced,
        List.append_assoc, between?_export, if_neg (ne_everything _)]
      simp

/-- The text stands on one line and holds no double quote. -/
def Unquoted (cs : List Char) : Prop := ∀ c ∈ cs, c ≠ '\x22' ∧ c ≠ '\n' ∧ c ≠ '\r'

instance (cs : List Char) : Decidable (Unquoted cs) :=
  List.decidableBAll (fun c => c ≠ '\x22' ∧ c ≠ '\n' ∧ c ≠ '\r') cs

theorem Unquoted.append {a b : List Char} (ha : Unquoted a) (hb : Unquoted b) : Unquoted (a ++ b) := by
  intro c hc
  rcases List.mem_append.mp hc with h | h
  · exact ha c h
  · exact hb c h

theorem unquoted_of_quotable {s : String} (h : Quotable s) : Unquoted s.toList := by
  intro c hc
  refine ⟨?_, ?_, ?_⟩ <;> rintro rfl <;> exact h _ hc (by decide)

theorem Clause.front_unquoted {c : Clause} (h : ∀ name ∈ c.symbol?, Quotable name) :
    Unquoted c.front.toList := by
  have hbetween : ∀ {a b name : String}, Unquoted a.toList → Quotable name → Unquoted b.toList →
      Unquoted (a ++ name ++ b).toList := by
    intro a b name ha hname hb
    rw [String.toList_append, String.toList_append]
    exact (ha.append (unquoted_of_quotable hname)).append hb
  cases c with
  | everything => decide
  | defaultAs name => exact hbetween (by decide) (h name rfl) (by decide)
  | braced names => exact hbetween (by decide) (h names rfl) (by decide)
  | default name => exact hbetween (by decide) (h name rfl) (by decide)

/-- **A statement that is written down is read back.** -/
theorem statement?_line {s : Statement} (h : s.Plain) : statement? s.line.toList = some s := by
  have hfront : '\x22' ∉ s.clause.front.toList :=
    fun hm => (Clause.front_unquoted h.symbol _ hm).1 rfl
  have hpath : '\x22' ∉ s.path.toList := fun hm => h.path _ hm (by decide)
  have hline : s.line.toList = s.clause.front.toList ++ '\x22' :: (s.path.toList ++ '\x22' :: [';']) := by
    simp [Statement.line]
  unfold statement?
  rw [hline, breakOn_append hfront]
  simp only [bind, Option.bind, breakOn_append hpath, clause?_front h.symbol, if_true,
    String.ofList_toList]

/-- A statement stands on one line. -/
theorem oneLine_line {s : Statement} (h : s.Plain) : OneLine s.line.toList := by
  have hquote : OneLine "\"".toList := by decide
  have hclose : OneLine "\";".toList := by decide
  rw [Statement.line, String.toList_append, String.toList_append, String.toList_append]
  refine ((OneLine.append ?_ hquote).append ?_).append hclose
  · exact fun c hc => (Clause.front_unquoted h.symbol c hc).2
  · exact fun c hc => (unquoted_of_quotable h.path c hc).2

/-! ## Files -/

/-- The statements that lines begin with. -/
def leading : List (List Char) → List Statement
  | [] => []
  | l :: r =>
    match statement? l with
    | some s => s :: leading r
    | none => []

/-- The statements at the front of a text. -/
def imports (text : String) : List Statement := leading (linesOf text.toList)

/-- The statements at the front of a text that speak of files by the way to them. -/
def references (text : String) : List Statement := (imports text).filter Statement.isLocal

theorem leading_append {ss : List Statement} (h : ∀ s ∈ ss, s.Plain) (r : List (List Char)) :
    leading (ss.map (fun s => s.line.toList) ++ r) = ss ++ leading r := by
  induction ss with
  | nil => rfl
  | cons s ss ih =>
      rw [List.map_cons, List.cons_append, leading, statement?_line (h s List.mem_cons_self),
        ih fun t ht => h t (List.mem_cons_of_mem _ ht)]
      rfl

/-! ## Declarations -/

/-- The class that a line declares: whether it is the default export, and its name. -/
def declaration? (line : List Char) : Option (Bool × String) := do
  let r ← dropPat? "export ".toList line
  let isDefault := (dropPat? "default ".toList r).isSome
  let r ← dropPat? "class ".toList ((dropPat? "default ".toList r).getD r)
  let r ← dropEnd? " \x7b".toList r
  return (isDefault, String.ofList ((dropEnd? " extends BaseModel".toList r).getD r))

/-- The classes that the lines of a text declare. -/
def declarations (text : String) : List (Bool × String) :=
  (linesOf text.toList).filterMap declaration?

theorem declaration?_append (p : Policy) (rest : List Char) :
    declaration? ((classHead p "").toList ++ rest) = (dropEnd? " \x7b".toList rest).map fun r =>
      (p.isDefaultExport, String.ofList ((dropEnd? " extends BaseModel".toList r).getD r)) := by
  cases hp : p.isDefaultExport with
  | false =>
      have hhead : (classHead p "").toList ++ rest
          = "export ".toList ++ ("class ".toList ++ rest) := by simp [classHead, hp]
      have hnot : dropPat? "default ".toList ("class ".toList ++ rest) = none := rfl
      unfold declaration?
      simp only [hhead, dropPat?_append, hnot, bind, Option.bind, Option.getD, Option.isSome, pure]
      cases dropEnd? " \x7b".toList rest <;> rfl
  | true =>
      have hhead : (classHead p "").toList ++ rest
          = "export ".toList ++ ("default ".toList ++ ("class ".toList ++ rest)) := by
        simp [classHead, hp]
      unfold declaration?
      simp only [hhead, dropPat?_append, bind, Option.bind, Option.getD, Option.isSome, pure]
      cases dropEnd? " \x7b".toList rest <;> rfl

theorem classHead_eq (p : Policy) (name : String) :
    (classHead p name).toList = (classHead p "").toList ++ name.toList := by
  simp [classHead]

/-- **The declaration of a class is read back.** -/
theorem declaration?_classHead (p : Policy) {name : String}
    (h : dropEnd? " extends BaseModel".toList name.toList = none) :
    declaration? (classHead p name ++ " \x7b").toList = some (p.isDefaultExport, name) := by
  rw [String.toList_append, classHead_eq, List.append_assoc, declaration?_append, dropEnd?_append,
    Option.map_some, h]
  simp

/-- The declaration of a model tells the class that it extends. -/
theorem declaration?_modelHead (p : Policy) (name : String) :
    declaration? (classHead p name ++ " extends BaseModel \x7b").toList
      = some (p.isDefaultExport, name) := by
  have hend : " extends BaseModel \x7b".toList
      = " extends BaseModel".toList ++ " \x7b".toList := by decide
  rw [String.toList_append, classHead_eq, hend, List.append_assoc, declaration?_append,
    ← List.append_assoc, dropEnd?_append, Option.map_some, dropEnd?_append]
  simp

end Scaffold.Source
