import Scaffold.Proofs.Json.Values
import Scaffold.Proofs.Schema.Fields

/-!
# `Scaffold.Proofs.Schema.Plain` — entities of documents that JSON can hold

What is read from a field was there, or is a default. So the options of the columns, relations and
indices of an entity are values that JSON documents hold, if the value that the entity was read from is
one (`Entity.fromJson_of_read`), and those of the entities of a document, if the document is one
(`fromJson_of_readDocument`). Nothing that is read from a value goes deeper than the value does.

## Contents
- **Fields and lists.** `exists_of_readField`, `exists_of_readItems`, `exists_of_readList`.
- **Options.** `isJson_of_readOptions`, `isJson_of_readField`.
- **Entities.** `isJson_supplyNames`, `Entity.FromJson`, `Entity.fromJson_of_read`.
- **Documents.** `fromJson_of_readEntityList`, `fromJson_of_readDocument`.
-/

namespace Scaffold.Schema

open Json (IsJson eq_map_of_plain isJson_map isJson_map_cons isJson_map_nil isJson_ofList)

variable {α : Type} {room : Nat}

/-! ## Fields and lists -/

theorem ensure_eq_valid {test : α → Option String} {x : Checked α} {a : α}
    (h : x.ensure test = .valid a) : x = .valid a := (Checked.ensure_eq_valid_iff.mp h).1

theorem isJson_find? {es : Entries} (hes : IsJson (room + 1) (.map es)) {k : Key}
    {spelling : String} {v : Value} (h : k.find? es = some (spelling, v)) : IsJson room v :=
  (isJson_map.mp hes _ (Key.spells_of_find? h).2).2

/-- A field of a JSON mapping was read from a JSON value, or it has its default. -/
theorem exists_of_readField {es : Entries} (hes : IsJson room (.map es)) {k : Key}
    {read : Value → Checked α} {default : Option α} {a : α}
    (h : readField es k read default = .valid a) :
    (∃ v, IsJson room v ∧ read v = .valid a) ∨ default = some a := by
  obtain ⟨n, rfl⟩ := hes.exists_room
  rcases readField_eq_valid h with ⟨spelling, v, hfind, hread⟩ | hdefault
  · exact .inl ⟨v, (isJson_find? hes hfind).mono n.le_succ, hread⟩
  · exact .inr hdefault

theorem exists_of_readItems {read : Value → Checked α} {n : Nat} {xs : List Value} {ys : List α}
    (h : readItems read n xs = .valid ys) : ∀ y ∈ ys, ∃ x ∈ xs, read x = .valid y := by
  induction xs generalizing n ys with
  | nil =>
      cases h
      exact fun y hy => absurd hy List.not_mem_nil
  | cons x xs ih =>
      unfold readItems at h
      obtain ⟨_, zs, hhead, hzs, rfl⟩ := Checked.seq_eq_valid.mp h
      obtain ⟨z, hz, rfl⟩ := Checked.map_eq_valid.mp hhead
      intro y hy
      rcases List.mem_cons.mp hy with rfl | hy
      · exact ⟨x, List.mem_cons_self, within_eq_valid.mp hz⟩
      · obtain ⟨w, hw, hread⟩ := ih hzs y hy
        exact ⟨w, List.mem_cons_of_mem _ hw, hread⟩

/-- The items of a JSON list were read from JSON values. -/
theorem exists_of_readList {read : Value → Checked α} {v : Value} (hv : IsJson room v)
    {ys : List α} (h : readList read v = .valid ys) :
    ∀ y ∈ ys, ∃ x, IsJson room x ∧ read x = .valid y := by
  unfold readList at h
  rw [hv.unfold] at h
  intro y hy
  split at h
  · obtain ⟨x, hx, hread⟩ := exists_of_readItems h y hy
    exact ⟨x, hv.item hx, hread⟩
  · exact absurd hv.plain (by simp [Value.plain])
  · exact absurd hv.plain (by simp [Value.plain])
  · exact nomatch h

/-! ## Options -/

theorem isJson_of_readEntries {es es' : Entries} (hes : IsJson room (.map es))
    (h : readEntries es = .valid es') : IsJson room (.map es') := by
  obtain ⟨n, rfl⟩ := hes.exists_room
  induction es generalizing es' with
  | nil =>
      cases h
      exact hes
  | cons x es ih =>
      obtain ⟨hx, hes⟩ := isJson_map_cons.mp hes
      unfold readEntries at h
      obtain ⟨_, rest, hhead, hrest, rfl⟩ := Checked.seq_eq_valid.mp h
      obtain ⟨s, -, rfl⟩ := Checked.map_eq_valid.mp hhead
      exact isJson_map_cons.mpr ⟨⟨⟨s, rfl⟩, hx.2⟩, ih hrest hes⟩

theorem isJson_of_readOptions {v : Value} (hv : IsJson room v) {es : Entries}
    (h : readOptions v = .valid es) : IsJson room (.map es) := by
  unfold readOptions at h
  split at h
  · rename_i es' hes'
    obtain ⟨read, hread, rfl⟩ := Checked.map_eq_valid.mp h
    exact isJson_ofList (isJson_of_readEntries (hv.entries? hes') hread)
  · exact nomatch h

/-- Options that are not given are empty. -/
theorem isJson_of_readField {es : Entries} (hes : IsJson room (.map es)) {k : Key}
    {options : Entries} (h : readField es k readOptions (some []) = .valid options) :
    IsJson room (.map options) := by
  rcases exists_of_readField hes h with ⟨v, hv, hread⟩ | hdefault
  · exact isJson_of_readOptions hv hread
  · cases hdefault
    obtain ⟨n, rfl⟩ := hes.exists_room
    exact isJson_map_nil

/-! ## Entities -/

theorem Column.isJson_of_read {v : Value} (hv : IsJson room v) {c : Column}
    (h : Column.read v = .valid c) : IsJson room (.map c.options) := by
  obtain ⟨es, hes, hbody⟩ := readRecord_eq_valid h
  simp only [Checked.seq_eq_valid, Checked.map_eq_valid] at hbody
  -- the fields stand nested, and the options are the last one
  obtain ⟨_, options, ⟨_, _, ⟨_, _, ⟨_, _, ⟨_, _, ⟨_, _, ⟨_, -, rfl⟩, -, rfl⟩, -, rfl⟩, -, rfl⟩, -,
    rfl⟩, -, rfl⟩, hoptions, rfl⟩ := hbody
  exact isJson_of_readField (hv.entries? hes) hoptions

theorem Relation.isJson_of_read {v : Value} (hv : IsJson room v) {r : Relation}
    (h : Relation.read v = .valid r) : IsJson room (.map r.options) := by
  obtain ⟨es, hes, hbody⟩ := readRecord_eq_valid (ensure_eq_valid h)
  simp only [Checked.seq_eq_valid, Checked.map_eq_valid] at hbody
  obtain ⟨_, options, ⟨_, _, ⟨_, _, ⟨_, _, ⟨_, _, ⟨_, _, ⟨_, -, rfl⟩, -, rfl⟩, -, rfl⟩, -, rfl⟩, -,
    rfl⟩, -, rfl⟩, hoptions, rfl⟩ := hbody
  exact isJson_of_readField (hv.entries? hes) hoptions

theorem Index.isJson_of_read {v : Value} (hv : IsJson room v) {i : Index}
    (h : Index.read v = .valid i) : IsJson room (.map i.options) := by
  obtain ⟨es, hes, hbody⟩ := readRecord_eq_valid h
  simp only [Checked.seq_eq_valid, Checked.map_eq_valid] at hbody
  obtain ⟨_, options, ⟨_, _, ⟨_, -, rfl⟩, -, rfl⟩, hoptions, rfl⟩ := hbody
  exact isJson_of_readField (hv.entries? hes) hoptions

theorem isJson_supplyNames {v : Value} (hv : IsJson room v) : IsJson room (supplyNames v) := by
  cases hes : v.entries? with
  | none =>
      rw [supplyNames_of_entries?_eq_none hes]
      exact hv
  | some es =>
      cases eq_map_of_plain hv.plain hes
      obtain ⟨n, rfl⟩ := hv.exists_room
      obtain ⟨es', hsupplied, hes'⟩ :=
        forall_mem_supplyNames (fun _ _ _ hx => ⟨⟨_, rfl⟩, hx.2⟩) (isJson_map.mp hv)
      rw [hsupplied]
      exact isJson_map.mpr hes'

/-- The columns, relations and indices of an entity of JSON values were read from JSON values. -/
structure Entity.FromJson (room : Nat) (e : Entity) : Prop where
  columns : ∀ c ∈ e.columns, ∃ v, IsJson room v ∧ Column.read v = .valid c
  relations : ∀ r ∈ e.relations, ∃ v, IsJson room v ∧ Relation.read v = .valid r
  indices : ∀ i ∈ e.indices, ∃ v, IsJson room v ∧ Index.read v = .valid i

/-- A list of a JSON mapping has its items from JSON values, if it is empty where it is not given. -/
theorem exists_of_readListField {es : Entries} (hes : IsJson room (.map es)) {k : Key}
    {readAll : Value → Checked (List α)} {read : Value → Checked α}
    (hall : ∀ v xs, readAll v = .valid xs → readList read v = .valid xs) {xs : List α}
    (h : readField es k readAll (some []) = .valid xs) :
    ∀ x ∈ xs, ∃ v, IsJson room v ∧ read v = .valid x := by
  rcases exists_of_readField hes h with ⟨v, hv, hread⟩ | hdefault
  · exact exists_of_readList hv (hall v xs hread)
  · cases hdefault
    exact fun x hx => absurd hx List.not_mem_nil

theorem Entity.fromJson_of_read {v : Value} (hv : IsJson room v) {e : Entity}
    (h : Entity.read v = .valid e) : e.FromJson room := by
  obtain ⟨es, hes, hbody⟩ := readRecord_eq_valid h
  have hes := (isJson_supplyNames hv).entries? hes
  simp only [Checked.seq_eq_valid, Checked.map_eq_valid] at hbody
  obtain ⟨_, indices, ⟨_, relations, ⟨_, columns, ⟨_, _, ⟨_, _, ⟨_, _, ⟨_, _, ⟨_, -, rfl⟩, -, rfl⟩,
    -, rfl⟩, -, rfl⟩, -, rfl⟩, hcolumns, rfl⟩, hrelations, rfl⟩, hindices, rfl⟩ := hbody
  constructor
  · exact exists_of_readListField hes (fun _ _ => ensure_eq_valid) hcolumns
  · exact exists_of_readListField hes (fun _ _ => id) hrelations
  · exact exists_of_readListField hes (fun _ _ => id) hindices

/-! ## Documents -/

theorem fromJson_of_readEntityList {n : Nat} {items : List Value}
    (hitems : ∀ v ∈ items, IsJson room v) {es : List Entity}
    (h : (readEntityList n items).result = .ok es) : ∀ e ∈ es, e.FromJson room := by
  induction items generalizing n es with
  | nil =>
      cases h
      exact fun e he => absurd he List.not_mem_nil
  | cons v items ih =>
      obtain ⟨hv, hitems⟩ := List.forall_mem_cons.mp hitems
      unfold readEntityList at h
      split at h
      · exact nomatch h
      · exact nomatch h
      · rename_i e hread
        obtain ⟨rest, hrest, rfl⟩ := Results.map_eq_ok.mp h
        exact List.forall_mem_cons.mpr ⟨Entity.fromJson_of_read hv hread, ih hitems hrest⟩

/-- **The entities of a JSON document come from JSON values.** -/
theorem fromJson_of_readDocument {platform : String} {doc : Entries}
    (hdoc : IsJson (room + 1) (.map doc)) {es : List Entity} {o : Options}
    (h : (readDocument platform doc).result = .ok (es, o)) : ∀ e ∈ es, e.FromJson room := by
  obtain ⟨key, v, items, _, hfirst, hitems, -, hread, -, -⟩ := readDocument_eq_ok.mp h
  have hv := hdoc.lookup_succ (lookup_of_firstOf hfirst).2
  exact fromJson_of_readEntityList (fun _ => (hv.listItems? hitems).item) hread

end Scaffold.Schema
