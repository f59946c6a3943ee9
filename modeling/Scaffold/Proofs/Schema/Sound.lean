import Scaffold.Proofs.Display
import Scaffold.Proofs.Schema.Obstacle
import Scaffold.Proofs.Schema.Options
import Scaffold.Proofs.Schema.Plain

/-!
# `Scaffold.Proofs.Schema.Sound` — what documents are read as

Whatever a document that JSON can hold says, reading it fails for a fault of the document, or because
collections stand deeper inside each other than in any text that is read as JSON (`label_of_isTree`). Or
it gives entities and options that are sound: nothing lacks its name, columns and entities have different
ones, and every option is legal (`readDocument_sound`). All that comes after takes this for granted.

## Contents
- **Readers.** `ne_of_readName`, `of_readList`, `of_readOptional`, `ne_of_readField`,
  `of_readListField`, `of_readOptionalField`.
- **Relations.** `JoinTable.Sound`, `Relation.Sound`, `Relation.sound_of_read`.
- **Entities.** `Index.Sound`, `Entity.Sound`, `distinct_of_readColumns`, `Entity.sound_of_read`.
- **Names.** `Entity.NamedBy`, `Entity.namedBy_of_read`.
- **Options.** `Options.Sound`, `Options.sound_of_read`.
- **Plain documents.** `PastLimit`, `unwritable?_of_isTree`, `unshown?_of_isTree`,
  `isTree_supplyNames`, `label_of_isTree`.
- **Documents.** `readEntityList_eq_ok`, `SoundDocument`, `readDocument_sound`.
-/

namespace Scaffold.Schema

open Json (IsTree)

variable {α : Type} {P : α → Prop} {read : Value → Checked α} {v : Value} {es : Entries}

/-! ## Readers -/

theorem ne_of_readName {s : String} (h : readName v = .valid s) : s ≠ "" := by
  unfold readName at h
  split at h
  · split at h
    · exact nomatch h
    · rename_i hs
      cases h
      exact hs
  · rename_i hne
    exact absurd h (hne s)

theorem isPositive_of_readPositive {x : Decimal.Binary64} (h : readPositive v = .valid x) :
    x.isPositive = true := by
  unfold readPositive at h
  split at h
  · split at h
    · rename_i hx
      cases h
      exact hx
    · exact nomatch h
  · rename_i hne
    exact absurd h (hne x)

/-- The items of a list have every property that what is read has. -/
theorem of_readList (hread : ∀ v a, read v = .valid a → P a) {xs : List α}
    (h : readList read v = .valid xs) : ∀ x ∈ xs, P x := by
  have hitems : ∃ items, readItems read 0 items = .valid xs := by
    unfold readList at h
    split at h
    · exact ⟨_, h⟩
    · exact ⟨_, h⟩
    · exact ⟨_, h⟩
    · exact nomatch h
  obtain ⟨items, hitems⟩ := hitems
  intro x hx
  obtain ⟨u, -, hu⟩ := exists_of_readItems hitems x hx
  exact hread u x hu

theorem ne_nil_of_readNonempty {xs : List α} (h : readNonempty read v = .valid xs) : xs ≠ [] := by
  unfold readNonempty at h
  split at h
  · exact nomatch h
  · rename_i hne
    rintro rfl
    exact hne h

theorem of_readOptional (hread : ∀ v a, read v = .valid a → P a) {x : Option α}
    (h : readOptional read v = .valid x) : ∀ a ∈ x, P a := by
  unfold readOptional at h
  split at h
  · cases h
    exact fun a ha => nomatch ha
  · obtain ⟨b, hb, rfl⟩ := Checked.map_eq_valid.mp h
    intro a ha
    cases ha
    exact hread _ _ hb

/-- A name that has to be there is one. -/
theorem ne_of_readField {k : Key} {s : String} (h : readField es k readName none = .valid s) :
    s ≠ "" :=
  of_readField (P := (· ≠ "")) h (fun _ _ => ne_of_readName) nofun

/-- A list that may be left out has its items from what is read. -/
theorem of_readListField {k : Key} {xs : List α} (hread : ∀ v a, read v = .valid a → P a)
    (h : readField es k (readList read) (some []) = .valid xs) : ∀ x ∈ xs, P x :=
  of_readField (P := fun xs => ∀ x ∈ xs, P x) h (fun _ _ => of_readList hread) fun _ hnil =>
    Option.some.inj hnil ▸ fun _ hx => absurd hx List.not_mem_nil

/-- What may be left out altogether is what is read. -/
theorem of_readOptionalField {k : Key} {x : Option α} (hread : ∀ v a, read v = .valid a → P a)
    (h : readField es k (readOptional read) (some none) = .valid x) : ∀ a ∈ x, P a :=
  of_readField (P := fun x => ∀ a ∈ x, P a) h (fun _ _ => of_readOptional hread) fun _ hnone =>
    Option.some.inj hnone ▸ fun _ ha => nomatch ha

/-! ## Relations -/

/-- A join table and the columns that it joins have names. -/
structure JoinTable.Sound (t : JoinTable) : Prop where
  name : t.name ≠ ""
  joinColumns : ∀ c ∈ t.joinColumns, c.name ≠ ""
  inverseColumns : ∀ c ∈ t.inverseColumns, c.name ≠ ""

/-- A relation leads somewhere and has a name, as what it joins has; and it has no join columns if
    many entities stand on the other side. -/
structure Relation.Sound (r : Relation) : Prop where
  related : r.related ≠ ""
  field : r.field ≠ ""
  joinColumns : ∀ c ∈ r.joinColumns.getD [], c.name ≠ ""
  joinTable : ∀ t ∈ r.joinTable, t.Sound
  toMany : r.cardinality = .oneToMany ∨ r.cardinality = .manyToMany → r.joinColumns.getD [] = []

/-- A relation that there is no complaint about has no join columns where many entities stand on the
    other side. -/
theorem joinColumns_of_complaint? {r : Relation} (h : r.complaint? = none)
    (hmany : r.cardinality = .oneToMany ∨ r.cardinality = .manyToMany) :
    r.joinColumns.getD [] = [] := by
  have hto : r.cardinality.isToMany = true := by
    rcases hmany with hmany | hmany
    · rw [hmany]
      rfl
    · rw [hmany]
      rfl
  unfold Relation.complaint? Relation.misplacesColumns at h
  rw [hto, Bool.and_true] at h
  split at h
  · exact nomatch h
  · rename_i hplaced
    rw [Bool.not_eq_true', Bool.not_eq_false] at hplaced
    exact List.isEmpty_iff.mp hplaced

theorem JoinColumn.name_of_read {c : JoinColumn} (h : JoinColumn.read v = .valid c) :
    c.name ≠ "" := by
  obtain ⟨es, -, hbody⟩ := readRecord_eq_valid h
  simp only [Checked.seq_eq_valid, Checked.map_eq_valid] at hbody
  obtain ⟨_, _, ⟨name, hname, rfl⟩, -, rfl⟩ := hbody
  exact ne_of_readField hname

theorem JoinTable.sound_of_read {t : JoinTable} (h : JoinTable.read v = .valid t) : t.Sound := by
  obtain ⟨es, -, hbody⟩ := readRecord_eq_valid h
  simp only [Checked.seq_eq_valid, Checked.map_eq_valid] at hbody
  obtain ⟨_, inverse, ⟨_, joined, ⟨name, hname, rfl⟩, hjoined, rfl⟩, hinverse, rfl⟩ := hbody
  constructor
  · exact ne_of_readField hname
  · exact of_readListField (fun _ _ => JoinColumn.name_of_read) hjoined
  · exact of_readListField (fun _ _ => JoinColumn.name_of_read) hinverse

theorem Relation.sound_of_read {r : Relation} (h : Relation.read v = .valid r) : r.Sound := by
  have htest := (Checked.ensure_eq_valid_iff.mp h).2
  obtain ⟨es, -, hbody⟩ := readRecord_eq_valid (ensure_eq_valid h)
  simp only [Checked.seq_eq_valid, Checked.map_eq_valid] at hbody
  -- the fields stand nested, the last one outermost
  obtain ⟨_, _, ⟨_, table, ⟨_, columns, ⟨_, _, ⟨_, field, ⟨_, related, ⟨_, -, rfl⟩, hrelated, rfl⟩,
    hfield, rfl⟩, -, rfl⟩, hcolumns, rfl⟩, htable, rfl⟩, -, rfl⟩ := hbody
  constructor
  · exact ne_of_readField hrelated
  · exact ne_of_readField hfield
  · have hall := of_readOptionalField (P := fun cs => ∀ c ∈ cs, c.name ≠ "")
      (fun _ _ => of_readList fun _ _ => JoinColumn.name_of_read) hcolumns
    intro c hc
    cases columns with
    | none => exact absurd hc List.not_mem_nil
    | some cs => exact hall cs rfl c hc
  · exact of_readOptionalField (fun _ _ => JoinTable.sound_of_read) htable
  · exact joinColumns_of_complaint? htest

/-! ## Entities -/

/-- An index has a name and covers a column. -/
structure Index.Sound (i : Index) : Prop where
  name : i.name ≠ ""
  columns : i.columns ≠ []

/-- An entity, its files and its table have names, as everything in it has, and its columns have
    different ones. -/
structure Entity.Sound (e : Entity) : Prop where
  name : e.name ≠ ""
  file : e.fileName ≠ ""
  table : e.table ≠ ""
  columns : ∀ c ∈ e.columns, c.name ≠ ""
  distinct : (e.columns.map Column.name).Nodup
  relations : ∀ r ∈ e.relations, r.Sound
  indices : ∀ i ∈ e.indices, i.Sound

theorem Column.name_of_read {c : Column} (h : Column.read v = .valid c) : c.name ≠ "" := by
  obtain ⟨es, -, hbody⟩ := readRecord_eq_valid h
  simp only [Checked.seq_eq_valid, Checked.map_eq_valid] at hbody
  obtain ⟨_, _, ⟨_, _, ⟨_, _, ⟨_, _, ⟨_, _, ⟨_, _, ⟨name, hname, rfl⟩, -, rfl⟩, -, rfl⟩, -, rfl⟩, -,
    rfl⟩, -, rfl⟩, -, rfl⟩ := hbody
  exact ne_of_readField hname

theorem Index.sound_of_read {i : Index} (h : Index.read v = .valid i) : i.Sound := by
  obtain ⟨es, -, hbody⟩ := readRecord_eq_valid h
  simp only [Checked.seq_eq_valid, Checked.map_eq_valid] at hbody
  obtain ⟨_, _, ⟨_, columns, ⟨name, hname, rfl⟩, hcolumns, rfl⟩, -, rfl⟩ := hbody
  constructor
  · exact ne_of_readField hname
  · exact of_readField (P := (· ≠ [])) hcolumns (fun _ _ => ne_nil_of_readNonempty) nofun

/-- Columns that were read together have names, all of them different. -/
theorem distinct_of_readColumns {cs : List Column} (h : readColumns v = .valid cs) :
    (∀ c ∈ cs, c.name ≠ "") ∧ (cs.map Column.name).Nodup := by
  constructor
  · exact of_readList (fun _ _ => Column.name_of_read) (ensure_eq_valid h)
  · have htest := (Checked.ensure_eq_valid_iff.mp h).2
    unfold columnsComplaint? at htest
    split at htest
    · rename_i hnil
      exact List.nodup_iff_count.mpr (count_le_one_of_repeated hnil)
    · exact nomatch htest

theorem Entity.sound_of_read {e : Entity} (h : Entity.read v = .valid e) : e.Sound := by
  obtain ⟨es, -, hbody⟩ := readRecord_eq_valid h
  simp only [Checked.seq_eq_valid, Checked.map_eq_valid] at hbody
  obtain ⟨_, indices, ⟨_, relations, ⟨_, columns, ⟨_, _, ⟨_, _, ⟨_, table, ⟨_, file, ⟨name, hname,
    rfl⟩, hfile, rfl⟩, htable, rfl⟩, -, rfl⟩, -, rfl⟩, hcolumns, rfl⟩, hrelations, rfl⟩, hindices,
    rfl⟩ := hbody
  have hdistinct : (∀ c ∈ columns, c.name ≠ "") ∧ (columns.map Column.name).Nodup :=
    of_readField (P := fun cs : List Column => (∀ c ∈ cs, c.name ≠ "") ∧ (cs.map Column.name).Nodup)
      hcolumns (fun _ _ => distinct_of_readColumns) fun _ hnil =>
        Option.some.inj hnil ▸ ⟨fun _ hc => absurd hc List.not_mem_nil, List.nodup_nil⟩
  constructor
  · exact ne_of_readField hname
  · exact ne_of_readField hfile
  · exact ne_of_readField htable
  · exact hdistinct.1
  · exact hdistinct.2
  · exact of_readListField (fun _ _ => Relation.sound_of_read) hrelations
  · exact of_readListField (fun _ _ => Index.sound_of_read) hindices

/-! ## Names -/

/-- Files and table of an entity are called as the entity, where the mapping that it was read from
    does not say otherwise in either spelling. -/
structure Entity.NamedBy (e : Entity) (es : Entries) : Prop where
  file : es.lookup "fileName" = none → es.lookup "file_name" = none → e.fileName = e.name
  table : es.lookup "sqlName" = none → es.lookup "sql_name" = none → e.table = e.name

/-- **The names that an entity is not given are its own.** -/
theorem Entity.namedBy_of_read {e : Entity} (h : Entity.read v = .valid e) :
    ∃ es, v.entries? = some es ∧ e.NamedBy es := by
  obtain ⟨es', hes', hbody⟩ := readRecord_eq_valid h
  simp only [Checked.seq_eq_valid, Checked.map_eq_valid] at hbody
  obtain ⟨_, _, ⟨_, _, ⟨_, _, ⟨_, _, ⟨_, _, ⟨_, table, ⟨_, file, ⟨name, hname, rfl⟩, hfile, rfl⟩,
    htable, rfl⟩, -, rfl⟩, -, rfl⟩, -, rfl⟩, -, rfl⟩, -, rfl⟩ := hbody
  obtain ⟨⟨s, value⟩, hfind, hread⟩ := exists_of_required hname
  cases hes : v.entries? with
  | none =>
      unfold supplyNames at hes'
      rw [hes] at hes'
      exact nomatch hes.symm.trans hes'
  | some es =>
      refine ⟨es, rfl, ?_⟩
      by_cases hunnamed : ∀ e, Key.find? ⟨"tscName", "tsc_name"⟩ es = some e → e.2 = .null
      · -- without a name the entity is not read
        rw [supplyNames_of_unnamed hes hunnamed] at hes'
        cases hes.symm.trans hes'
        cases hunnamed _ hfind
        exact nomatch hread
      · simp only [not_forall] at hunnamed
        obtain ⟨entry, hentry, hne⟩ := hunnamed
        rw [supplyNames_of_named hes hentry hne] at hes'
        cases hes'
        rw [Key.find?_supply_of_ne (by decide) (by decide),
          Key.find?_supply_of_ne (by decide) (by decide)] at hfind
        cases hentry.symm.trans hfind
        constructor
        · intro hcamel hsnake
          rw [readField_congr (Key.find?_supply_of_ne (by decide) (by decide))] at hfile
          have hnone : Key.find? ⟨"fileName", "file_name"⟩ es = none :=
            Key.find?_eq_none_iff_lookup.mpr ⟨hcamel, hsnake⟩
          exact Checked.valid.inj ((read_of_supply hnone hfile).symm.trans hread)
        · intro hcamel hsnake
          have hnone : Key.find? ⟨"sqlName", "sql_name"⟩
              (supply ⟨"fileName", "file_name"⟩ value es) = none := by
            rw [Key.find?_supply_of_ne (by decide) (by decide)]
            exact Key.find?_eq_none_iff_lookup.mpr ⟨hcamel, hsnake⟩
          exact Checked.valid.inj ((read_of_supply hnone htable).symm.trans hread)

/-! ## Options -/

/-- Options are legal, name a place for the results and leave the formatter some time. -/
structure Options.Sound (o : Options) : Prop extends o.Legal where
  results : o.resultsPath ≠ ""
  timeout : o.timeout.isPositive = true
  number : o.timeout ≠ .nan

theorem Options.isPositive_defaultTimeout : Options.defaultTimeout.isPositive = true := by decide

theorem Options.sound_of_read {platform : String} {o : Options}
    (h : Options.read platform v = .valid o) : o.Sound := by
  obtain ⟨es, -, -, hread⟩ := Options.read_eq_valid_iff.mp h
  have hpositive : o.timeout.isPositive = true :=
    of_readField (P := (·.isPositive = true)) hread.timeout (fun _ _ => isPositive_of_readPositive)
      fun _ hdefault => Option.some.inj hdefault ▸ Options.isPositive_defaultTimeout
  refine { legal_of_read h with results := ?_, timeout := hpositive, number := ?_ }
  · exact of_readField (P := (· ≠ "")) hread.resultsPath (fun _ _ => ne_of_readName)
      fun _ hdefault => Option.some.inj hdefault ▸ (by decide : "./output" ≠ "")
  · intro hnan
    rw [hnan] at hpositive
    exact nomatch hpositive

/-! ## Plain documents -/

section Plain

variable {room : Nat}

/-- A fault of what has room for more collections inside each other than a limit allows. -/
structure PastLimit (limit room : Nat) (cause : Json.Unwritable) : Prop where
  deep : limit < room
  label : cause.label = "RecursionError"

variable {cause : Json.Unwritable}

/-- Long integers are faults of the document, so nothing else stops the reading of something plain. -/
theorem pastLimit_of_hindered {limit depth : Nat} {long : Bool}
    (h : Json.Hindered limit depth long cause) (hcause : cause.isWrongValue = false)
    (hdepth : depth ≤ room) : PastLimit limit room cause := by
  cases h with
  | long => exact nomatch hcause
  | deep hdeep => exact ⟨Nat.lt_of_lt_of_le hdeep hdepth, rfl⟩

/-- Only for its depth a plain value cannot be a default at all. -/
theorem unwritable?_of_isTree (h : IsTree room v) (hcause : unwritable? v = some cause) :
    PastLimit Json.writeLimit room cause := by
  unfold unwritable? at hcause
  split at hcause
  · cases hcause
  · rename_i c hwrite
    split at hcause
    · cases hcause
    · rename_i hwrong
      cases hcause
      exact pastLimit_of_hindered
        (Json.hindered_of_writeChars _ v _ h.plain _ (Results.map_eq_error.mp hwrite))
        (Bool.eq_false_iff.mpr hwrong) h.shallow

/-- And only for its depth there can be no complaint about it. -/
theorem unshown?_of_isTree (h : IsTree room v) (hcause : unshown? v = some cause) :
    PastLimit Value.showLimit (room + 1) cause := by
  obtain ⟨hshow, hwrong⟩ := Option.filter_eq_some_iff.mp hcause
  exact pastLimit_of_hindered (Value.hindered_of_unshowable? h.plain hshow) (by simpa using hwrong)
    (Nat.succ_le_succ h.shallow)

theorem isTree_find? (hes : IsTree (room + 1) (.map es)) {k : Key} {s : String}
    (h : k.find? es = some (s, v)) : IsTree room v :=
  (Json.isTree_map.mp hes _ (Key.spells_of_find? h).2).2

theorem isTree_supplyNames (h : IsTree room v) : IsTree room (supplyNames v) := by
  cases hes : v.entries? with
  | none =>
      rw [supplyNames_of_entries?_eq_none hes]
      exact h
  | some es =>
      cases Json.eq_map_of_plain h.plain hes
      obtain ⟨n, rfl⟩ := h.exists_room
      obtain ⟨es', hsupplied, hes'⟩ :=
        forall_mem_supplyNames (fun _ _ _ hx => ⟨⟨_, rfl⟩, hx.2⟩) (Json.isTree_map.mp h)
      rw [hsupplied]
      exact Json.isTree_map.mpr hes'

theorem Column.obstacle?_of_isTree (h : IsTree room (.map es))
    (hcause : Column.obstacle? es = some cause) : PastLimit Json.writeLimit room cause := by
  obtain ⟨u, hlookup, hcause⟩ := Option.bind_eq_some_iff.mp hcause
  exact unwritable?_of_isTree (h.lookup hlookup) hcause

theorem listed_of_isTree (h : IsTree room v) : ∀ x ∈ listed v, IsTree room x := by
  have hplain := h.plain
  cases v with
  | list xs => exact fun x => h.item
  | knot l w => exact absurd hplain (by simp [Value.plain])
  | set xs => exact absurd hplain (by simp [Value.plain])
  | pair a b => exact absurd hplain (by simp [Value.plain])
  | _ => exact fun x hx => absurd hx List.not_mem_nil

theorem Entity.obstacle?_of_isTree (h : IsTree room (.map es))
    (hcause : Entity.obstacle? es = some cause) : PastLimit Json.writeLimit room cause := by
  obtain ⟨columns, hlookup, hcause⟩ := Option.bind_eq_some_iff.mp hcause
  obtain ⟨c, hc, hcause⟩ := List.exists_of_findSome?_eq_some hcause
  obtain ⟨fields, hfields, hcause⟩ := Option.bind_eq_some_iff.mp hcause
  exact Column.obstacle?_of_isTree ((listed_of_isTree (h.lookup hlookup) c hc).entries? hfields) hcause

theorem Options.obstacle?_of_isTree (h : IsTree room (.map es))
    (hcause : Options.obstacle? es = some cause) : PastLimit Value.showLimit room cause := by
  obtain ⟨n, rfl⟩ := h.exists_room
  have hstyle : ∀ k : Key, ((k.find? es).bind fun e => unshown? e.2) = some cause →
      PastLimit Value.showLimit (n + 1) cause := by
    intro k hcause
    obtain ⟨⟨s, u⟩, hfind, hcause⟩ := Option.bind_eq_some_iff.mp hcause
    exact unshown?_of_isTree (isTree_find? h hfind) hcause
  unfold Options.obstacle? at hcause
  simp only [Option.or_eq_some_iff] at hcause
  rcases hcause with h | ⟨-, h | ⟨-, h⟩⟩
  all_goals exact hstyle _ h

/-- What stands first under some keys of a mapping stands in it. -/
theorem isTree_of_firstOf (hes : IsTree (room + 1) (.map es)) {keys : List String} {s : String}
    (h : firstOf es keys = some (s, v)) : IsTree room v := hes.lookup_succ (lookup_of_firstOf h).2

/-- The options of a document stand in it, or are empty. -/
theorem isTree_of_optionsOf {doc : Entries} (hdoc : IsTree room (.map doc))
    (h : (optionsOf doc).2 = .ok v) : ∃ es, v.entries? = some es ∧ IsTree room (.map es) := by
  obtain ⟨n, rfl⟩ := hdoc.exists_room
  have hempty : IsTree (n + 1) (.map []) :=
    Json.isTree_map.mpr fun _ hx => absurd hx List.not_mem_nil
  unfold optionsOf at h
  split at h
  · cases h
    exact ⟨[], rfl, hempty⟩
  · cases h
    exact ⟨[], rfl, hempty⟩
  · rename_i key w _ hfirst
    split at h
    · rename_i es hes
      cases h
      exact ⟨es, rfl, ((isTree_of_firstOf hdoc hfirst).entries? hes).mono n.le_succ⟩
    · exact nomatch h

/-- **Whatever is wrong with a document that JSON can hold is a fault of the document**, or collections
    stand too deep inside each other. -/
theorem label_of_isTree {platform : String} {doc : Entries} (hdoc : IsTree room (.map doc))
    {f : DocumentFault} (h : (readDocument platform doc).result = .error f) :
    f.label = "ConfigurationError" ∨ Json.depthLimit < room ∧ f.label = "RecursionError" := by
  cases f with
  | unwritable cause =>
      obtain ⟨entry, items, options, hfirst, hitems, hoptions, hstop⟩ :=
        readDocument_eq_unwritable.mp h
      refine .inr ?_
      obtain ⟨before, v, after, rfl, -, hstop⟩ | ⟨-, -, -, hstop⟩ := hstop
      · -- a default stands in the document, which goes deeper
        obtain ⟨n, rfl⟩ := hdoc.exists_room
        have hv := isTree_supplyNames (((isTree_of_firstOf hdoc hfirst).listItems? hitems).item
          (List.mem_append_right before List.mem_cons_self))
        obtain ⟨fields, hfields, hstop⟩ := Option.bind_eq_some_iff.mp hstop
        have hpast := Entity.obstacle?_of_isTree (hv.entries? hfields) hstop
        exact ⟨Nat.succ_lt_succ hpast.deep, hpast.label⟩
      · obtain ⟨es, hes, htree⟩ := isTree_of_optionsOf hdoc hoptions
        rw [hes] at hstop
        have hpast := Options.obstacle?_of_isTree htree hstop
        exact ⟨Nat.lt_trans (by decide) hpast.deep, hpast.label⟩
  | _ => exact .inl rfl

end Plain

/-! ## Documents -/

/-- The entities of a list are read one by one. -/
theorem readEntityList_eq_ok {n : Nat} {items : List Value} {entities : List Entity} :
    (readEntityList n items).result = .ok entities ↔
      List.Forall₂ (fun v e => Entity.read v = .valid e) items entities := by
  induction items generalizing n entities with
  | nil =>
      rw [List.forall₂_nil_left_iff]
      constructor
      · intro h
        cases h
        rfl
      · rintro rfl
        rfl
  | cons v items ih =>
      rw [List.forall₂_cons_left_iff, readEntityList]
      cases hread : Entity.read v with
      | valid e =>
          rw [Results.map_eq_ok]
          constructor
          · rintro ⟨rest, hrest, rfl⟩
            exact ⟨e, rest, rfl, ih.mp hrest, rfl⟩
          · rintro ⟨_, rest, he, hrest, rfl⟩
            cases he
            exact ⟨rest, ih.mpr hrest, rfl⟩
      | invalid fs =>
          constructor
          · intro h
            cases h
          · rintro ⟨_, _, he, -, -⟩
            cases he
      | aborted c =>
          constructor
          · intro h
            cases h
          · rintro ⟨_, _, he, -, -⟩
            cases he

/-- Entities and options as they are read from the items of a document: every entity from the item in
    its place, soundly, and all of different names. -/
structure SoundDocument (items : List Value) (entities : List Entity) (o : Options) : Prop where
  read : List.Forall₂ (fun v e => Entity.read v = .valid e ∧ e.Sound ∧
    ∃ es, v.entries? = some es ∧ e.NamedBy es) items entities
  distinct : (entities.map Entity.name).Nodup
  options : o.Sound

/-- **Reading a document that JSON can hold is sound.** It fails for a fault of the document, or gives
    one entity for each item of the list of entities and options, all of them sound. A fault of another
    kind comes only of a document that no text is read as, since too many collections stand inside each
    other in it. -/
theorem readDocument_sound (platform : String) (doc : Entries)
    (hdoc : (Value.map doc).plain = true) :
    (∃ f, (readDocument platform doc).result = .error f ∧ (f.label = "ConfigurationError" ∨
      Json.depthLimit < (Value.map doc).depth ∧ f.label = "RecursionError")) ∨
      ∃ entities o key items, (readDocument platform doc).result = .ok (entities, o) ∧
        firstOf doc entityKeys = some (key, .list items) ∧ SoundDocument items entities o := by
  cases hresult : (readDocument platform doc).result with
  | error f => exact .inl ⟨f, rfl, label_of_isTree (Json.isTree_of_plain hdoc) hresult⟩
  | ok read =>
      obtain ⟨entities, o⟩ := read
      obtain ⟨key, v, items, _, hfirst, hitems, -, hread, hdistinct, hoptions⟩ :=
        readDocument_eq_ok.mp hresult
      obtain ⟨n, hroom⟩ := (Json.isTree_of_plain hdoc).exists_room
      have hlist : IsTree n v := isTree_of_firstOf (hroom ▸ Json.isTree_of_plain hdoc) hfirst
      cases Json.eq_list_of_plain hlist.plain hitems
      refine .inr ⟨entities, o, key, items, rfl, hfirst, ?_⟩
      constructor
      · exact (readEntityList_eq_ok.mp hread).imp fun v e he =>
          ⟨he, Entity.sound_of_read he, Entity.namedBy_of_read he⟩
      · exact List.nodup_iff_count.mpr (count_le_one_of_repeated hdistinct)
      · exact Options.sound_of_read hoptions

/-- A document with one entity, which only its name and a column are told of. -/
def userDocument : Entries :=
  [(.text "tables", .list [.map
    [(.text "tscName", .text "User"),
     (.text "columns", .list [.map [(.text "tsc_name", .text "id"), (.text "default", .int 1)]])]])]

theorem sound_userDocument : (Value.map userDocument).plain = true ∧
    ∃ entities o key items, (readDocument "\n" userDocument).result = .ok (entities, o) ∧
      firstOf userDocument entityKeys = some (key, .list items) ∧ SoundDocument items entities o := by
  have hplain : (Value.map userDocument).plain = true := by decide
  refine ⟨hplain, (readDocument_sound "\n" userDocument hplain).resolve_left ?_⟩
  rintro ⟨f, hf, -⟩
  have hok : (readDocument "\n" userDocument).result.toOption.isSome = true := by decide +kernel
  rw [hf] at hok
  exact nomatch hok

end Scaffold.Schema
