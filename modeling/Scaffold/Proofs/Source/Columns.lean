import Scaffold.Proofs.Projection
import Scaffold.Proofs.Results
import Scaffold.Proofs.Source.Joining
import Scaffold.Source.Template

/-!
# `Scaffold.Proofs.Source.Columns` — every column has a place of its own in a file

A model and a data transfer object are frames into which a block is put for each column that the file
shows (`Frame.fill`). A block is made from its column and from the conventions, and the frame from
everything else that the entity has. So a column that comes, goes or moves takes its block with it, and
no other text changes (`columns_local`).

## Contents
- **Frames.** `Frame`, `Frame.fill`, `Frame.fill_eq_ok`, `Frame.fill_insert_ne`.
- **Local files.** `Local`, `local_of_filled`.
- **Models.** `modelBlock`, `modelFrame`, `render_model`.
- **Data transfer objects.** `dtoBlock`, `dtoFrame`, `render_dto`.
- **The theorem.** `columns_local`.
-/

namespace Scaffold.Source

open Naming (Policy)
open Schema (Column Entity)

/-! ## Frames -/

/-- **A file with a gap**: what stands in front of the gap and what stands behind it. -/
structure Frame where
  front : Except RenderFault String
  back : Except RenderFault String

namespace Frame

/-- The file with blocks in its gap. It is rendered from the front to the back, and the first fault
    counts. -/
def fill (f : Frame) (blocks : List (Except RenderFault String)) : Except RenderFault String := do
  let front ← f.front
  let blocks ← blocks.mapM id
  let back ← f.back
  return front ++ Text.concat blocks ++ back

variable {f : Frame} {blocks before behind : List (Except RenderFault String)}

theorem fill_eq_ok {t : String} : f.fill blocks = .ok t ↔ ∃ front texts back, f.front = .ok front ∧
    blocks.mapM id = .ok texts ∧ f.back = .ok back ∧ t = front ++ Text.concat texts ++ back := by
  constructor
  · intro h
    obtain ⟨front, hfront, h⟩ := Results.bind_eq_ok.mp h
    obtain ⟨texts, htexts, h⟩ := Results.bind_eq_ok.mp h
    obtain ⟨back, hback, h⟩ := Results.bind_eq_ok.mp h
    cases h
    exact ⟨front, texts, back, hfront, htexts, hback, rfl⟩
  · rintro ⟨front, texts, back, hfront, htexts, hback, rfl⟩
    unfold fill
    rw [hfront, htexts, hback]
    rfl

/-- **A block that is not empty shows**: with it the file is another one, or none at all. -/
theorem fill_insert_ne {block : Except RenderFault String} (hblock : block ≠ .ok "") {t : String}
    (h : f.fill (before ++ behind) = .ok t) : f.fill (before ++ block :: behind) ≠ .ok t := by
  intro hinserted
  obtain ⟨front, texts, back, hfront, htexts, hback, rfl⟩ := fill_eq_ok.mp h
  obtain ⟨front', texts', back', hfront', htexts', hback', heq⟩ := fill_eq_ok.mp hinserted
  cases hfront.symm.trans hfront'
  cases hback.symm.trans hback'
  rw [List.mapM_append] at htexts htexts'
  obtain ⟨us, hus, htexts⟩ := Results.bind_eq_ok.mp htexts
  obtain ⟨vs, hvs, htexts⟩ := Results.bind_eq_ok.mp htexts
  obtain ⟨us', hus', htexts'⟩ := Results.bind_eq_ok.mp htexts'
  obtain ⟨bvs, hbvs, htexts'⟩ := Results.bind_eq_ok.mp htexts'
  obtain ⟨b, vs', hb, hvs', rfl⟩ := Results.mapM_cons_eq_ok.mp hbvs
  cases hus.symm.trans hus'
  cases hvs.symm.trans hvs'
  cases htexts
  cases htexts'
  -- the two files differ in length by the block
  have hlength := congrArg String.length heq
  simp only [concat_append, Text.concat, String.length_append] at hlength
  have hempty : b = "" := by
    apply String.length_eq_zero_iff.mp
    omega
  exact hblock (hempty ▸ hb)

end Frame

/-! ## Local files -/

variable {frame : Frame} {block : Column → Except RenderFault String} {Shown : Column → Prop}
  [DecidablePred Shown] {text : List Column → Except RenderFault String}

/-- **A file in which every column has a place of its own.** The columns that are shown have a block
    each, and the frame around the blocks is the same for all columns. -/
structure Local (frame : Frame) (block : Column → Except RenderFault String) (Shown : Column → Prop)
    [DecidablePred Shown] (text : List Column → Except RenderFault String) : Prop where
  /-- The blocks follow each other as the columns do. -/
  filled : ∀ cs, text cs = frame.fill ((cs.filter Shown).map block)
  /-- A column that is not shown might as well not be there. -/
  hidden : ∀ xs c ys, ¬ Shown c → text (xs ++ c :: ys) = text (xs ++ ys)
  /-- The block of any other stands between those of the columns before it and those of the columns
      behind it, and nothing else is new. -/
  inserted : ∀ xs c ys, Shown c →
    text (xs ++ ys) = frame.fill ((xs.filter Shown).map block ++ (ys.filter Shown).map block) ∧
    text (xs ++ c :: ys) =
      frame.fill ((xs.filter Shown).map block ++ block c :: (ys.filter Shown).map block)
  /-- Only such a column can be told from the text. -/
  seen : ∀ xs c ys t, text (xs ++ ys) = .ok t → (text (xs ++ c :: ys) = .ok t ↔ ¬ Shown c)

/-- A file is local if it is filled with blocks that are not empty. -/
theorem local_of_filled (hfilled : ∀ cs, text cs = frame.fill ((cs.filter Shown).map block))
    (hblock : ∀ c, block c ≠ .ok "") : Local frame block Shown text := by
  have hhidden : ∀ xs c ys, ¬ Shown c → text (xs ++ c :: ys) = text (xs ++ ys) := by
    intro xs c ys hc
    rw [hfilled, hfilled, List.filter_append, List.filter_append,
      List.filter_cons_of_neg (by simpa using hc)]
  have hinserted : ∀ xs c ys, Shown c →
      text (xs ++ ys) = frame.fill ((xs.filter Shown).map block ++ (ys.filter Shown).map block) ∧
      text (xs ++ c :: ys) =
        frame.fill ((xs.filter Shown).map block ++ block c :: (ys.filter Shown).map block) := by
    intro xs c ys hc
    rw [hfilled, hfilled, List.filter_append, List.filter_append,
      List.filter_cons_of_pos (by simpa using hc), List.map_append, List.map_append, List.map_cons]
    exact ⟨rfl, rfl⟩
  refine ⟨hfilled, hhidden, hinserted, fun xs c ys t ht => ⟨fun hsame hc => ?_, fun hc => ?_⟩⟩
  · obtain ⟨hwithout, hwith⟩ := hinserted xs c ys hc
    exact Frame.fill_insert_ne (hblock c) (hwithout ▸ ht) (hwith ▸ hsame)
  · rw [hhidden xs c ys hc]
    exact ht

/-! ## Models -/

variable (p : Policy) (s : Scope) (eol : String) (e : Entity)

/-- The block of a column in a model. -/
def modelBlock (c : Column) : Except RenderFault String :=
  ((columnLines p c).map (joinLines eol)).mapError .unwritable

/-- A model without its columns: imports, indices and the head of the class in front of them, the
    relations behind them. -/
def modelFrame : Frame where
  front := do
    let common ← s.path "common"
    let files ← s.files e
    let indices ← (e.indices.mapM (indexLine p)).mapError .unwritable
    return joinLines eol ([importLine modelDecorators "typeorm",
        importLine "\x7bBaseModel\x7d" (common ++ "/base.model")] ++
      relatedImports p files .model p.modelName e ++ [""] ++ indices ++
      [entityLine e, classHead p (p.modelName e.name) ++ " extends BaseModel \x7b"])
  back := do
    let relations ← (e.relations.mapM (relationLines p)).mapError .unwritable
    return joinLines eol (relations.flatten ++ ["\x7d"])

theorem modelBlock_ne_empty (c : Column) : modelBlock p eol c ≠ .ok "" := by
  intro h
  obtain ⟨ls, hls, hempty⟩ := Results.map_eq_ok.mp (Results.mapError_eq_ok.mp h)
  obtain ⟨argument, -, rfl⟩ := Results.map_eq_ok.mp hls
  refine joinLines_ne_empty (l := propertyLine p c.name (columnType c)) (by simp) ?_ hempty
  unfold propertyLine
  simp [String.append_eq_empty_iff]

/-- The blocks of columns are there together or not at all. -/
theorem mapM_modelBlock (cs : List Column) : (cs.map (modelBlock p eol)).mapM id =
    ((cs.mapM (columnLines p)).map (List.map (joinLines eol))).mapError .unwritable := by
  induction cs with
  | nil => rfl
  | cons c cs ih =>
      rw [List.map_cons, List.mapM_cons, List.mapM_cons, ih]
      unfold modelBlock
      cases columnLines p c with
      | error cause => rfl
      | ok ls => cases cs.mapM (columnLines p) <;> rfl

theorem render_model (cs : List Column) :
    Template.model.render p { s with entity := some (Entity.forModel { e with columns := cs }) } eol =
      (modelFrame p s eol e).fill
        ((cs.filter fun c => c.primary = false).map (modelBlock p eol)) := by
  have hplain : Entity.plainColumns { e with columns := cs } =
      cs.filter fun c => c.primary = false :=
    List.filter_congr fun c _ => by cases c.primary <;> rfl
  unfold Frame.fill
  rw [mapM_modelBlock]
  unfold Template.render Template.lines Entity.forModel
  rw [hplain]
  unfold modelFrame
  -- one decision after another, in the order of rendering
  show ((Scope.path s "common").bind fun common => (Scope.files s e).bind fun files =>
    (modelLines p common files { e with columns := cs.filter fun c => c.primary = false }).mapError
      RenderFault.unwritable).map (joinLines eol) = _
  cases s.path "common" with
  | error fault => rfl
  | ok common =>
  cases s.files e with
  | error fault => rfl
  | ok files =>
  unfold modelLines
  dsimp only
  cases e.indices.mapM (indexLine p) with
  | error cause => rfl
  | ok indices =>
  cases (cs.filter fun c => c.primary = false).mapM (columnLines p) with
  | error cause => rfl
  | ok columns =>
  cases e.relations.mapM (relationLines p) with
  | error cause => rfl
  | ok relations =>
  refine congrArg Except.ok ?_
  rw [← joinLines_flatten, ← joinLines_append, ← joinLines_append]
  simp only [List.append_assoc]
  rfl

/-! ## Data transfer objects -/

/-- The block of a column in a data transfer object. -/
def dtoBlock (c : Column) : Except RenderFault String := .ok (joinLines eol (dtoColumnLines p c))

/-- A data transfer object without its columns: imports and the head of the class in front of them,
    the relations behind them. -/
def dtoFrame : Frame where
  front := do
    let files ← s.files e.forDto
    return joinLines eol ([importLine "\x7bApiProperty,ApiPropertyOptional\x7d" "@nestjs/swagger"] ++
      relatedImports p files .dto p.dtoName e.forDto ++ ["", classHead p (p.dtoName e.name) ++ " \x7b"])
  back := .ok (joinLines eol (e.oneToMany.flatMap (dtoRelationLines p) ++ ["\x7d"]))

theorem dtoBlock_ne_empty (c : Column) : dtoBlock p eol c ≠ .ok "" := by
  have hdecorator : ∃ l ∈ dtoColumnLines p c, l ≠ "" := by
    unfold dtoColumnLines
    simp only
    split
    · exact ⟨"    @ApiPropertyOptional()", by simp, by decide⟩
    · exact ⟨"    @ApiProperty()", by simp, by decide⟩
  obtain ⟨l, hl, hne⟩ := hdecorator
  exact fun h => joinLines_ne_empty hl hne (Except.ok.inj h)

theorem mapM_dtoBlock (cs : List Column) : (cs.map (dtoBlock p eol)).mapM id =
    .ok ((cs.map (dtoColumnLines p)).map (joinLines eol)) := by
  induction cs with
  | nil => rfl
  | cons c cs ih =>
      rw [List.map_cons, List.mapM_cons, ih]
      rfl

/-- The columns that a data transfer object shows. -/
def SentColumn (c : Column) : Prop := c.primary = false ∧ ¬ e.RefersThrough c.name

instance (c : Column) : Decidable (SentColumn e c) :=
  inferInstanceAs (Decidable (c.primary = false ∧ ¬ e.RefersThrough c.name))

theorem render_dto (cs : List Column) :
    Template.dto.render p { s with entity := some (Entity.forDto { e with columns := cs }) } eol =
      (dtoFrame p s eol e).fill ((cs.filter (SentColumn e)).map (dtoBlock p eol)) := by
  have hcolumns : (Entity.forDto { e with columns := cs }).columns = cs.filter (SentColumn e) := by
    rw [Entity.columns_forDto]
    refine List.filter_congr fun c _ => ?_
    have hsame : Entity.RefersThrough { e with columns := cs } c.name ↔ e.RefersThrough c.name := .rfl
    rw [Bool.eq_iff_iff, decide_eq_true_iff]
    unfold SentColumn
    simp [hsame]
  unfold Frame.fill
  rw [mapM_dtoBlock]
  unfold dtoFrame
  show ((Scope.files s e.forDto).bind fun files =>
    .ok (dtoLines p files (Entity.forDto { e with columns := cs }))).map (joinLines eol) = _
  cases s.files e.forDto with
  | error fault => rfl
  | ok files =>
  refine congrArg Except.ok ?_
  unfold dtoLines
  rw [hcolumns, ← joinLines_flatten, ← joinLines_append, ← joinLines_append, ← List.flatMap_def]
  simp only [List.append_assoc]
  rfl

/-! ## The theorem -/

/-- **Columns have places of their own in models and in data transfer objects.** Whatever else an entity
    has and whatever is in scope: of its columns a model shows those that do not belong to the key, and a
    data transfer object those of them that no relation of many entities to one goes through. Such a
    column has a block that is made from the column, with the conventions and the line ending alone.
    Putting a column between others puts its block between theirs, and changes nothing else; one that is
    not shown leaves no trace, and any other does. -/
theorem columns_local :
    Local (modelFrame p s eol e) (modelBlock p eol) (fun c => c.primary = false) (fun cs =>
      Template.model.render p { s with entity := some (Entity.forModel { e with columns := cs }) } eol) ∧
    Local (dtoFrame p s eol e) (dtoBlock p eol) (SentColumn e) (fun cs =>
      Template.dto.render p { s with entity := some (Entity.forDto { e with columns := cs }) } eol) :=
  ⟨local_of_filled (render_model p s eol e) (modelBlock_ne_empty p eol),
    local_of_filled (render_dto p s eol e) (dtoBlock_ne_empty p eol)⟩

end Scaffold.Source
