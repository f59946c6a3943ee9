import Scaffold.Log
import Scaffold.Text.Basic

/-!
# `Scaffold.Formatter` — formatting as far as it works

A formatter gives a text for a text, or a complaint. A file that cannot be formatted is written as
it is; the complaint is kept with the name of what the file was made from.

## Contents
- **Formatters.** `Complaint`, `Formatter`, `Formatter.keep`.
- **Applying.** `Unformatted`, `Formatter.apply`.
-/

namespace Scaffold

/-! ## Formatters -/

/-- Why a text was not formatted. -/
inductive Complaint
  /-- The formatter refuses the text; `details` is what else it printed. -/
  | rejected (message details : String)
  /-- The formatter itself went wrong. -/
  | broken (label message : String)
  deriving DecidableEq, Repr

namespace Complaint

/-- What messages call a complaint. -/
def label : Complaint → String
  | .rejected _ _ => "FormattingFailure"
  | .broken label _ => label

/-- The words of a complaint. -/
def message : Complaint → String
  | .rejected message details =>
    if details = "" then message else message ++ ": " ++ Text.trimmed details
  | .broken _ message => message

end Complaint

/-- A formatter of source texts; `parser` names the language of the text. -/
abbrev Formatter := (code parser : String) → Except Complaint String

/-- The formatter that leaves every text as it is. -/
def Formatter.keep : Formatter := fun code _ => .ok code

/-! ## Applying -/

/-- A file that was left unformatted: what it was made from, and the complaint. -/
structure Unformatted where
  source : String
  complaint : Complaint
  deriving DecidableEq, Repr

namespace Unformatted

/-- The line of a report about the file. -/
def diagnostic (u : Unformatted) : String := u.source ++ ": " ++ u.complaint.message

/-- The messages about the file. -/
def log (u : Unformatted) : List Log.Entry :=
  [⟨.error, .formatting,
     "There were some problems with model generation for table: " ++ u.source⟩,
   ⟨.error, .formatting, s!"  ✗ {u.complaint.label}: {u.complaint.message}"⟩]

end Unformatted

/-- The text as the formatter gives it, or as it was with the complaint about it. -/
def Formatter.apply (f : Formatter) (text source parser : String) :
    String × Option Unformatted :=
  match f text parser with
  | .ok formatted => (formatted, none)
  | .error complaint => (text, some ⟨source, complaint⟩)

end Scaffold
