import Scaffold.Proofs.Results
import Scaffold.Proofs.Schema.Accepted

/-!
# `Scaffold.Proofs.Schema.Obstacle` — where reading a document stops

Whatever is wrong with a document is collected and told of as a fault of the document, with two
exceptions. A default stops the reading altogether if JSON has no form for its kind, or if collections
stand too deep in it (`Entity.obstacle?_read`); and so does a value that names no style and goes too deep
to be shown (`Options.obstacle?_read`). Nothing else does (`readDocument_eq_unwritable`).

## Contents
- **Results.** `Checked.obstacle?`, and what it is of results put together.
- **Values.** `unwritable?`, `unshown?`.
- **Readers.** `obstacle?_readText` and its like, `obstacle?_readList`, `obstacle?_readField`,
  `obstacle?_readRecord`.
- **Records.** `Column.obstacle?_read`, `Relation.obstacle?_read`, `Index.obstacle?_read`,
  `Entity.obstacle?_read`, `Options.obstacle?_read`.
- **Documents.** `StopsAt`, `combine_eq_unwritable`, `readDocument_eq_unwritable`.
-/

namespace Scaffold.Schema

open Checked (fault)
open Json (Unwritable)

variable {α β : Type}

/-! ## Results -/

namespace Checked

/-- What stopped the reading, if anything did. -/
def obstacle? : Checked α → Option Unwritable
  | .aborted cause => some cause
  | _ => none

variable {x : Checked α}

theorem obstacle?_eq_some {cause : Unwritable} : x.obstacle? = some cause ↔ x = .aborted cause := by
  cases x <;> simp [obstacle?]

@[simp] theorem obstacle?_valid (a : α) : (valid a).obstacle? = none := rfl

@[simp] theorem obstacle?_invalid (fs : List Fault) : (invalid fs : Checked α).obstacle? = none := rfl

@[simp] theorem obstacle?_fault (kind : FaultKind) : (fault kind : Checked α).obstacle? = none := rfl

@[simp] theorem obstacle?_map (f : α → β) : (f <$> x).obstacle? = x.obstacle? := by
  cases x <;> rfl

@[simp] theorem obstacle?_map' (f : α → β) : (x.map f).obstacle? = x.obstacle? := obstacle?_map f

/-- Both sides are read, the first one first. -/
@[simp] theorem obstacle?_seq {f : Checked (α → β)} :
    (f <*> x).obstacle? = f.obstacle?.or x.obstacle? := by
  cases f with
  | valid g => exact obstacle?_map g
  | invalid fs => cases x <;> rfl
  | aborted cause => rfl

@[simp] theorem obstacle?_seqLeft {y : Checked β} :
    (x <* y).obstacle? = x.obstacle?.or y.obstacle? :=
  obstacle?_seq.trans (congrArg (Option.or · _) (obstacle?_map _))

@[simp] theorem obstacle?_within {step : Step} : (x.within step).obstacle? = x.obstacle? := by
  cases x <;> rfl

@[simp] theorem obstacle?_ensure {test : α → Option String} :
    (x.ensure test).obstacle? = x.obstacle? := by
  cases x with
  | valid a =>
      simp only [Checked.ensure]
      cases test a <;> rfl
  | invalid fs => rfl
  | aborted cause => rfl

end Checked

@[simp] theorem Checked.obstacle?_unwritable {cause : Unwritable} :
    (Checked.unwritable cause : Checked α).obstacle? =
      if cause.isWrongValue then none else some cause := by
  unfold Checked.unwritable
  split <;> rfl

/-! ## Values -/

/-- Why a value cannot be a default: JSON has no form for its kind, or collections stand too deep in
    it. -/
def unwritable? (v : Value) : Option Unwritable :=
  match Json.write .spaced v with
  | .ok _ => none
  | .error cause => if cause.isWrongValue then none else some cause

/-- Why there can be no complaint about a value that names no style: it goes too deep to be shown. -/
def unshown? (v : Value) : Option Unwritable := v.unshowable?.filter fun c => !c.isWrongValue

theorem Checked.obstacle?_complaint {cause : Option Unwritable} {reason : String} :
    (Checked.complaint cause reason : Checked α).obstacle? = cause.filter fun c => !c.isWrongValue := by
  cases cause with
  | none => rfl
  | some cause =>
      show (Checked.unwritable cause : Checked α).obstacle? = _
      rw [Checked.obstacle?_unwritable, Option.filter_some]
      cases cause.isWrongValue <;> rfl

/-! ## Readers -/

section Readers

variable {v : Value} {read : Value → Checked α}

@[simp] theorem obstacle?_readText : (readText v).obstacle? = none := by
  unfold readText
  repeat' split
  all_goals rfl

@[simp] theorem obstacle?_readName : (readName v).obstacle? = none := by
  unfold readName
  split
  · split <;> rfl
  · exact obstacle?_readText

@[simp] theorem obstacle?_readExtension : (readExtension v).obstacle? = none := by
  unfold readExtension
  split
  · split <;> rfl
  · exact obstacle?_readText

@[simp] theorem obstacle?_readBool : (readBool v).obstacle? = none := by
  unfold readBool
  repeat' split
  all_goals rfl

@[simp] theorem obstacle?_readNumber : (readNumber v).obstacle? = none := by
  unfold readNumber
  repeat' split
  all_goals rfl

@[simp] theorem obstacle?_readPositive : (readPositive v).obstacle? = none := by
  unfold readPositive
  split
  · split <;> rfl
  · exact obstacle?_readNumber

@[simp] theorem obstacle?_readChoice [Choice α] : (readChoice v : Checked α).obstacle? = none := by
  unfold readChoice
  split <;> rfl

@[simp] theorem obstacle?_readLiteral [Choice α] : (readLiteral v : Checked α).obstacle? = none := by
  unfold readLiteral
  split <;> rfl

/-- A text can be shown, whether it names a style or not. -/
theorem obstacle?_readStyle {legal : List Naming.CaseStyle} {place : String} :
    (Options.readStyle legal place v).obstacle? = unshown? v := by
  unfold Options.readStyle Naming.CaseStyle.read
  cases hstyle : (Choice.ofValue? v : Option Naming.CaseStyle) with
  | none => exact Checked.obstacle?_complaint
  | some s =>
      have hshown : unshown? v = none := by
        cases v with
        | text t => rfl
        | _ => exact nomatch hstyle
      rw [hshown]
      by_cases hlegal : legal.contains s = true
      · simp only [hlegal, if_true, Checked.obstacle?_valid]
      · simp only [hlegal]
        exact Checked.obstacle?_complaint

theorem obstacle?_readOptional (h : ∀ u, (read u).obstacle? = none) :
    (readOptional read v).obstacle? = none := by
  unfold readOptional
  split
  · rfl
  · exact (Checked.obstacle?_map' some).trans (h v)

/-- Items are read in order. -/
@[simp] theorem obstacle?_readItems {n : Nat} {xs : List Value} :
    (readItems read n xs).obstacle? = xs.findSome? fun x => (read x).obstacle? := by
  induction xs generalizing n with
  | nil => rfl
  | cons x xs ih =>
      rw [readItems, Checked.obstacle?_seq, Checked.obstacle?_map, Checked.obstacle?_within, ih,
        List.findSome?_cons]
      cases (read x).obstacle? <;> rfl

/-- The items of a value that is read as a list. -/
def listed (v : Value) : List Value :=
  match v.unfold with
  | .list xs => xs
  | .set xs => xs
  | .pair a b => [a, b]
  | _ => []

theorem obstacle?_readList :
    (readList read v).obstacle? = (listed v).findSome? fun x => (read x).obstacle? := by
  unfold readList listed
  cases v.unfold with
  | list xs => exact obstacle?_readItems
  | set xs => exact obstacle?_readItems
  | pair a b => exact obstacle?_readItems
  | _ => rfl

theorem obstacle?_readList_none (h : ∀ u, (read u).obstacle? = none) :
    (readList read v).obstacle? = none := by
  rw [obstacle?_readList, List.findSome?_eq_none_iff]
  exact fun x _ => h x

theorem obstacle?_readNonempty (h : ∀ u, (read u).obstacle? = none) :
    (readNonempty read v).obstacle? = none := by
  unfold readNonempty
  split
  · rfl
  · exact obstacle?_readList_none h

@[simp] theorem obstacle?_readEntries {es : Entries} : (readEntries es).obstacle? = none := by
  induction es with
  | nil => rfl
  | cons e es ih => simp [readEntries, ih]

@[simp] theorem obstacle?_readOptions : (readOptions v).obstacle? = none := by
  unfold readOptions
  split <;> simp

theorem obstacle?_readExpression : (readExpression v).obstacle? = unwritable? v := by
  unfold readExpression unwritable?
  split
  · rfl
  · rfl
  · cases Json.write .spaced v with
    | ok s => rfl
    | error cause => exact Checked.obstacle?_unwritable

theorem obstacle?_readField {es : Entries} {k : Key} {default : Option α} :
    (readField es k read default).obstacle? = (k.find? es).bind fun e => (read e.2).obstacle? := by
  unfold readField
  cases k.find? es with
  | some e => exact Checked.obstacle?_within
  | none => cases default <;> rfl

/-- A field with one spelling. -/
theorem obstacle?_readField_single {es : Entries} {name : String} {default : Option α} :
    (readField es (.single name) read default).obstacle? =
      (es.lookup name).bind fun u => (read u).obstacle? := by
  rw [obstacle?_readField]
  unfold Key.find? Key.single
  cases es.lookup name <;> rfl

theorem obstacle?_readField_none (h : ∀ u, (read u).obstacle? = none) {es : Entries} {k : Key}
    {default : Option α} : (readField es k read default).obstacle? = none := by
  rw [obstacle?_readField]
  cases k.find? es with
  | some e => exact h e.2
  | none => rfl

theorem obstacle?_readRecord {model : String} {keys : List Key} {body : Entries → Checked α} :
    (readRecord model keys body v).obstacle? = v.entries?.bind fun es => (body es).obstacle? := by
  unfold readRecord
  cases v.entries? with
  | none => rfl
  | some es =>
      simp only [Option.bind_some]
      split <;> simp

theorem obstacle?_readRecord_none {model : String} {keys : List Key} {body : Entries → Checked α}
    (h : ∀ es, (body es).obstacle? = none) : (readRecord model keys body v).obstacle? = none := by
  rw [obstacle?_readRecord]
  cases v.entries? with
  | none => rfl
  | some es => exact h es

end Readers

/-! ## Records -/

section Records

variable {v : Value}

/-- What stops the reading of a column with these fields: its default. -/
def Column.obstacle? (es : Entries) : Option Unwritable := (es.lookup "default").bind unwritable?

theorem Column.obstacle?_read : (Column.read v).obstacle? = v.entries?.bind Column.obstacle? := by
  unfold Column.read
  rw [obstacle?_readRecord]
  congr 1
  funext es
  simp only [Checked.obstacle?_seq, Checked.obstacle?_map,
    obstacle?_readField_none fun _ => obstacle?_readName,
    obstacle?_readField_none fun _ => obstacle?_readText,
    obstacle?_readField_none fun _ => obstacle?_readBool,
    obstacle?_readField_none fun _ => obstacle?_readOptional fun _ => obstacle?_readLiteral,
    obstacle?_readField_none fun _ => obstacle?_readOptions, Option.none_or, Option.or_none]
  simp only [obstacle?_readField_single, obstacle?_readExpression]
  rfl

theorem JoinColumn.obstacle?_read : (JoinColumn.read v).obstacle? = none := by
  refine obstacle?_readRecord_none fun es => ?_
  simp only [Checked.obstacle?_seq, Checked.obstacle?_map,
    obstacle?_readField_none fun _ => obstacle?_readName,
    obstacle?_readField_none fun _ => obstacle?_readOptional fun _ => obstacle?_readText,
    Option.or_none]

theorem JoinTable.obstacle?_read : (JoinTable.read v).obstacle? = none := by
  refine obstacle?_readRecord_none fun es => ?_
  simp only [Checked.obstacle?_seq, Checked.obstacle?_map,
    obstacle?_readField_none fun _ => obstacle?_readName,
    obstacle?_readField_none fun _ => obstacle?_readList_none fun _ => JoinColumn.obstacle?_read,
    Option.or_none]

theorem Relation.obstacle?_read : (Relation.read v).obstacle? = none := by
  unfold Relation.read
  rw [Checked.obstacle?_ensure]
  refine obstacle?_readRecord_none fun es => ?_
  simp only [Checked.obstacle?_seq, Checked.obstacle?_map,
    obstacle?_readField_none fun _ => obstacle?_readName,
    obstacle?_readField_none fun _ => obstacle?_readChoice,
    obstacle?_readField_none fun _ => obstacle?_readOptional fun _ => obstacle?_readText,
    obstacle?_readField_none fun _ => obstacle?_readOptional fun _ =>
      obstacle?_readList_none fun _ => JoinColumn.obstacle?_read,
    obstacle?_readField_none fun _ => obstacle?_readOptional fun _ => JoinTable.obstacle?_read,
    obstacle?_readField_none fun _ => obstacle?_readOptions, Option.or_none]

theorem Index.obstacle?_read : (Index.read v).obstacle? = none := by
  refine obstacle?_readRecord_none fun es => ?_
  simp only [Checked.obstacle?_seq, Checked.obstacle?_map,
    obstacle?_readField_none fun _ => obstacle?_readName,
    obstacle?_readField_none fun _ => obstacle?_readNonempty fun _ => obstacle?_readText,
    obstacle?_readField_none fun _ => obstacle?_readOptions, Option.or_none]

/-- What stops the reading of an entity with these fields: the first default of its columns that
    cannot be written. -/
def Entity.obstacle? (es : Entries) : Option Unwritable :=
  (es.lookup "columns").bind fun columns =>
    (listed columns).findSome? fun c => c.entries?.bind Column.obstacle?

theorem Entity.obstacle?_read :
    (Entity.read v).obstacle? = (supplyNames v).entries?.bind Entity.obstacle? := by
  unfold Entity.read
  rw [obstacle?_readRecord]
  congr 1
  funext es
  simp only [Checked.obstacle?_seq, Checked.obstacle?_map,
    obstacle?_readField_none fun _ => obstacle?_readName,
    obstacle?_readField_none fun _ => obstacle?_readOptional fun _ => obstacle?_readText,
    obstacle?_readField_none fun _ => obstacle?_readList_none fun _ => Relation.obstacle?_read,
    obstacle?_readField_none fun _ => obstacle?_readList_none fun _ => Index.obstacle?_read,
    Option.none_or, Option.or_none]
  simp only [obstacle?_readField_single, readColumns, Checked.obstacle?_ensure, obstacle?_readList,
    Column.obstacle?_read]
  rfl

/-- What stops the reading of options with these entries: the first value of a style that names none and
    cannot be shown. -/
def Options.obstacle? (es : Entries) : Option Unwritable :=
  let style (k : Key) := (k.find? es).bind fun e => unshown? e.2
  (style ⟨"convertCaseFile", "convert_case_file"⟩).or
    ((style ⟨"convertCaseEntity", "convert_case_entity"⟩).or
      (style ⟨"convertCaseProperty", "convert_case_property"⟩))

theorem Options.obstacle?_read (platform : String) :
    (Options.read platform v).obstacle? = v.entries?.bind Options.obstacle? := by
  unfold Options.read
  rw [obstacle?_readRecord]
  congr 1
  funext es
  simp only [Checked.obstacle?_seq, Checked.obstacle?_map,
    obstacle?_readField_none fun _ => obstacle?_readName,
    obstacle?_readField_none fun _ => obstacle?_readBool,
    obstacle?_readField_none fun _ => obstacle?_readChoice,
    obstacle?_readField_none fun _ => obstacle?_readPositive,
    obstacle?_readField_none fun _ => obstacle?_readExtension, Option.none_or, Option.or_none]
  simp only [obstacle?_readField, obstacle?_readStyle, Option.or_assoc]
  rfl

end Records

/-! ## Documents -/

/-- Reading the entities of a list stops at one of them, those before it being valid. -/
def StopsAt (items : List Value) (cause : Unwritable) : Prop :=
  ∃ before v after, items = before ++ v :: after ∧ (∀ u ∈ before, ∃ e, Entity.read u = .valid e) ∧
    (supplyNames v).entries?.bind Entity.obstacle? = some cause

theorem readEntityList_eq_unwritable {n : Nat} {items : List Value} {cause : Unwritable} :
    (readEntityList n items).result = .error (.unwritable cause) ↔ StopsAt items cause := by
  induction items generalizing n with
  | nil => simp [readEntityList, StopsAt]
  | cons v items ih =>
      -- where the first entity is no obstacle it is valid, and the rest decides
      have hcons : StopsAt (v :: items) cause ↔ Entity.read v = .aborted cause ∨
          (∃ e, Entity.read v = .valid e) ∧ StopsAt items cause := by
        rw [← Checked.obstacle?_eq_some, Entity.obstacle?_read]
        constructor
        · rintro ⟨before, u, after, hitems, hvalid, hstop⟩
          cases before with
          | nil =>
              cases hitems
              exact .inl hstop
          | cons u' before =>
              cases hitems
              have hvalid := List.forall_mem_cons.mp hvalid
              exact .inr ⟨hvalid.1, before, u, after, rfl, hvalid.2, hstop⟩
        · rintro (hstop | ⟨hv, before, u, after, rfl, hvalid, hstop⟩)
          · exact ⟨[], v, items, rfl, by simp, hstop⟩
          · exact ⟨v :: before, u, after, rfl, List.forall_mem_cons.mpr ⟨hv, hvalid⟩, hstop⟩
      rw [hcons, ← ih (n := n + 1), readEntityList]
      cases Entity.read v with
      | aborted c => simp
      | invalid fs => simp
      | valid e => simp [Results.map_eq_error]

/-- Options stop the reading once the entities were read and have different names. -/
theorem combine_eq_unwritable {platform : String} {options : Value} {es : List Entity}
    {cause : Unwritable} : combine platform options es = .error (.unwritable cause) ↔
      repeated (es.map Entity.name) = [] ∧ options.entries?.bind Options.obstacle? = some cause := by
  rw [← Options.obstacle?_read platform, Checked.obstacle?_eq_some]
  unfold combine readOptionValue
  cases repeated (es.map Entity.name) with
  | cons n ns => simp
  | nil => cases Options.read platform options <;> simp [Except.map]

theorem optionsOf_ne_unwritable {doc : Entries} {cause : Unwritable} :
    (optionsOf doc).2 ≠ .error (.unwritable cause) := by
  unfold optionsOf
  repeat' split
  all_goals simp

/-- **A document that stops the reading** has a list of entities, and options that are a mapping if
    they are there. A default of one of its columns cannot be written, every entity before being valid;
    or all entities are valid, and the options stop the reading. -/
theorem readDocument_eq_unwritable {platform : String} {doc : Entries} {cause : Unwritable} :
    (readDocument platform doc).result = .error (.unwritable cause) ↔
      ∃ entry items options, firstOf doc entityKeys = some entry ∧
        entry.2.listItems? = some items ∧ (optionsOf doc).2 = .ok options ∧
        (StopsAt items cause ∨ ∃ es, (readEntityList 0 items).result = .ok es ∧
          repeated (es.map Entity.name) = [] ∧
            options.entries?.bind Options.obstacle? = some cause) := by
  rw [readDocument_eq_error]
  constructor
  · rintro (⟨-, ⟨⟩⟩ | ⟨_, _, -, -, ⟨⟩⟩ | ⟨key, v, items, hfirst, hitems, hfail⟩)
    obtain hfail | ⟨options, hoptions, hfail⟩ := hfail
    · exact absurd hfail optionsOf_ne_unwritable
    · refine ⟨(key, v), items, options, hfirst, hitems, hoptions, ?_⟩
      exact hfail.imp readEntityList_eq_unwritable.mp fun ⟨es, hes, hfail⟩ =>
        ⟨es, hes, combine_eq_unwritable.mp hfail⟩
  · rintro ⟨⟨key, v⟩, items, options, hfirst, hitems, hoptions, hstop⟩
    refine .inr (.inr ⟨key, v, items, hfirst, hitems, .inr ⟨options, hoptions, ?_⟩⟩)
    exact hstop.imp readEntityList_eq_unwritable.mpr fun ⟨es, hes, hfail⟩ =>
      ⟨es, hes, combine_eq_unwritable.mpr hfail⟩

end Scaffold.Schema
