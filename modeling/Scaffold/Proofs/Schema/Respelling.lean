import Scaffold.Proofs.Schema.Sound
import Scaffold.Proofs.Schema.Spelling

/-!
# `Scaffold.Proofs.Schema.Respelling` — documents that spell their keys otherwise

Every field has two spellings, and a document may use either wherever it holds a record, at any depth.
Which records stand where is the shape of a document (`Shape`), and respelling it changes the keys of
these records and nothing else (`Shape.Respelled`). Whatever is respelled is read as before, record by
record (`Column.agree_read` to `Entity.agree_read`), so that the document gives the same entities and
options, or none as before (`readDocument_respelled`).

## Contents
- **Agreement.** `Agree`, which is kept by all that readers are put together from; `forall₂_agree`.
- **Shapes.** `Shape`, `Shape.Respelled`, `Shape.null_iff`.
- **Readers.** `agree_readField`, `agree_readFree`, `agree_readRecord`, `agree_readList`,
  `agree_readOptional`.
- **Records.** The shape of each record, and that it is read as before; `respelled_supplyNames`.
- **Documents.** `documentShape`, `alike_entityItems?`, `alike_givenOptions?`, `ReadsAs`, `Stops`,
  `readDocument_agree`, `readDocument_respelled`.
-/

namespace Scaffold.Schema

/-! ## Agreement -/

section Agreement

variable {α β : Type}

/-- Two readings give the same, or neither gives anything; and what stops one of them stops the other. -/
structure Agree (x y : Checked α) : Prop where
  valid : ∀ a, x = .valid a ↔ y = .valid a
  obstacle : x.obstacle? = y.obstacle?

theorem Agree.refl (x : Checked α) : Agree x x := ⟨fun _ => Iff.rfl, rfl⟩

theorem Agree.map {x y : Checked α} (h : Agree x y) (f : α → β) : Agree (f <$> x) (f <$> y) where
  valid b := by
    rw [Checked.map_eq_valid, Checked.map_eq_valid]
    exact exists_congr fun a => and_congr_left fun _ => h.valid a
  obstacle := by rw [Checked.obstacle?_map, Checked.obstacle?_map, h.obstacle]

theorem Agree.seq {f g : Checked (α → β)} {x y : Checked α} (hf : Agree f g) (h : Agree x y) :
    Agree (f <*> x) (g <*> y) where
  valid b := by
    rw [Checked.seq_eq_valid, Checked.seq_eq_valid]
    exact exists_congr fun u => exists_congr fun a =>
      and_congr (hf.valid u) (and_congr_left fun _ => h.valid a)
  obstacle := by rw [Checked.obstacle?_seq, Checked.obstacle?_seq, hf.obstacle, h.obstacle]

theorem Agree.within {x y : Checked α} (h : Agree x y) (s t : Step) :
    Agree (x.within s) (y.within t) where
  valid a := by
    rw [within_eq_valid, within_eq_valid]
    exact h.valid a
  obstacle := by rw [Checked.obstacle?_within, Checked.obstacle?_within, h.obstacle]

theorem Agree.ensure {x y : Checked α} (h : Agree x y) (test : α → Option String) :
    Agree (x.ensure test) (y.ensure test) where
  valid a := by
    rw [Checked.ensure_eq_valid_iff, Checked.ensure_eq_valid_iff]
    exact and_congr_left fun _ => h.valid a
  obstacle := by rw [Checked.obstacle?_ensure, Checked.obstacle?_ensure, h.obstacle]

/-- Lists whose items agree one by one are read as the same. -/
theorem forall₂_agree {read : Value → Checked α} {items items' : List Value} {as : List α}
    (h : List.Forall₂ (fun v v' => Agree (read v) (read v')) items items') :
    List.Forall₂ (fun v a => read v = .valid a) items as ↔
      List.Forall₂ (fun v a => read v = .valid a) items' as := by
  induction h generalizing as with
  | nil => exact Iff.rfl
  | cons hhead _ ih =>
      rw [List.forall₂_cons_left_iff, List.forall₂_cons_left_iff]
      refine exists_congr fun a => exists_congr fun rest => ?_
      exact and_congr (hhead.valid a) (and_congr_left fun _ => ih)

end Agreement

/-! ## Shapes -/

/-- Where records stand in a value: nowhere that matters, in the items of a list, or here, with others
    inside its fields. -/
inductive Shape
  | free
  | list (item : Shape)
  | record (keys : List Key) (inside : Key → Shape)

/-- A value with records that are respelled. -/
def Shape.Respelled : Shape → Value → Value → Prop
  | .free => fun v v' => v = v'
  | .list s => fun v v' => v = v' ∨ ∃ xs xs', v = .list xs ∧ v' = .list xs' ∧
      List.Forall₂ s.Respelled xs xs'
  | .record keys inside => fun v v' => v = v' ∨ ∃ es es', v = .map es ∧ v' = .map es' ∧
      RespelledEntries keys (fun k => (inside k).Respelled) es es'

theorem Shape.respelled_refl (s : Shape) (v : Value) : s.Respelled v v := by
  cases s with
  | free => exact rfl
  | list s => exact .inl rfl
  | record keys inside => exact .inl rfl

/-- Nothing is respelled as nothing only. -/
theorem Shape.null_iff {s : Shape} {v v' : Value} (h : s.Respelled v v') : v = .null ↔ v' = .null := by
  cases s with
  | free =>
      cases h
      exact Iff.rfl
  | list s =>
      rcases h with rfl | ⟨xs, xs', rfl, rfl, -⟩
      · exact Iff.rfl
      · exact ⟨nofun, nofun⟩
  | record keys inside =>
      rcases h with rfl | ⟨es, es', rfl, rfl, -⟩
      · exact Iff.rfl
      · exact ⟨nofun, nofun⟩

/-! ## Readers -/

section Readers

variable {α : Type} {s : Shape} {keys : List Key} {inside : Key → Shape} {v v' : Value}
  {es es' : Entries} {read : Value → Checked α}

theorem agree_readField (hkeys : KeysApart keys)
    (h : RespelledEntries keys (fun k => (inside k).Respelled) es es') {k : Key} (hk : k ∈ keys)
    {default : Option α} (hread : ∀ v v', (inside k).Respelled v v' → Agree (read v) (read v')) :
    Agree (readField es k read default) (readField es' k read default) := by
  unfold readField
  rcases h.find? hkeys (inside k).respelled_refl hk with ⟨hnone, hnone'⟩ | ⟨e, e', he, he', hvalue⟩
  · rw [hnone, hnone']
    exact Agree.refl _
  · rw [he, he']
    exact (hread _ _ hvalue).within _ _

/-- A field that holds no records is read from the same value. -/
theorem agree_readFree (hkeys : KeysApart keys)
    (h : RespelledEntries keys (fun k => (inside k).Respelled) es es') {k : Key} (hk : k ∈ keys)
    {default : Option α} (hinside : inside k = .free) :
    Agree (readField es k read default) (readField es' k read default) := by
  refine agree_readField hkeys h hk fun v v' hvalue => ?_
  rw [hinside] at hvalue
  cases hvalue
  exact Agree.refl _

/-- A respelled record is read as before if its fields are. -/
theorem agree_readRecord {model : String} {body : Entries → Checked α} (hkeys : KeysApart keys)
    (hbody : ∀ es es', RespelledEntries keys (fun k => (inside k).Respelled) es es' →
      Agree (body es) (body es')) (h : (Shape.record keys inside).Respelled v v') :
    Agree (readRecord model keys body v) (readRecord model keys body v') := by
  rcases h with rfl | ⟨es, es', rfl, rfl, h⟩
  · exact Agree.refl _
  · have hagree := hbody es es' h
    refine ⟨fun a => ?_, ?_⟩
    · rw [readRecord_eq_valid_iff, readRecord_eq_valid_iff, Value.exists_entries?_map,
        Value.exists_entries?_map, h.allUsed_iff hkeys]
      exact and_congr_right fun _ => hagree.valid a
    · rw [obstacle?_readRecord, obstacle?_readRecord]
      exact hagree.obstacle

theorem agree_readItems {xs xs' : List Value}
    (h : List.Forall₂ (fun v v' => Agree (read v) (read v')) xs xs') (n : Nat) :
    Agree (readItems read n xs) (readItems read n xs') := by
  induction h generalizing n with
  | nil => exact Agree.refl _
  | cons hhead _ ih => exact ((hhead.within _ _).map _).seq (ih (n + 1))

theorem agree_readList (hread : ∀ v v', s.Respelled v v' → Agree (read v) (read v'))
    (h : (Shape.list s).Respelled v v') : Agree (readList read v) (readList read v') := by
  rcases h with rfl | ⟨xs, xs', rfl, rfl, h⟩
  · exact Agree.refl _
  · exact agree_readItems (h.imp hread) 0

theorem readOptional_of_ne (h : v ≠ .null) : readOptional read v = some <$> read v := by
  cases v with
  | null => exact absurd rfl h
  | _ => rfl

theorem agree_readOptional (hread : ∀ v v', s.Respelled v v' → Agree (read v) (read v'))
    (h : s.Respelled v v') : Agree (readOptional read v) (readOptional read v') := by
  by_cases hv : v = .null
  · rw [hv, (Shape.null_iff h).mp hv]
    exact Agree.refl _
  · rw [readOptional_of_ne hv, readOptional_of_ne (mt (Shape.null_iff h).mpr hv)]
    exact (hread v v' h).map some

end Readers

/-! ## Records -/

/-- Columns hold no records. -/
def Column.shape : Shape := .record Column.keys fun _ => .free

/-- Join columns hold no records. -/
def JoinColumn.shape : Shape := .record JoinColumn.keys fun _ => .free

/-- Join tables hold join columns. -/
def JoinTable.shape : Shape := .record JoinTable.keys fun k =>
  if k.camel ∈ ["joinColumns", "inverseJoinColumns"] then .list JoinColumn.shape else .free

/-- Relations hold join columns, and a join table. -/
def Relation.shape : Shape := .record Relation.keys fun k =>
  if k.camel = "joinColumnOptions" then .list JoinColumn.shape
  else if k.camel = "joinTableOptions" then JoinTable.shape
  else .free

/-- Indices hold no records. -/
def Index.shape : Shape := .record Index.keys fun _ => .free

/-- Entities hold columns, relations and indices. -/
def Entity.shape : Shape := .record Entity.keys fun k =>
  if k.camel = "columns" then .list Column.shape
  else if k.camel = "relations" then .list Relation.shape
  else if k.camel = "indices" then .list Index.shape
  else .free

/-- Options hold no records. -/
def Options.shape : Shape := .record Options.keys fun _ => .free

variable {v v' : Value}

theorem Column.agree_read (h : Column.shape.Respelled v v') :
    Agree (Column.read v) (Column.read v') := by
  have hkeys : KeysApart Column.keys := by decide
  refine agree_readRecord hkeys (fun es es' h => ?_) h
  refine ((((((Agree.map ?_ _).seq ?_).seq ?_).seq ?_).seq ?_).seq ?_).seq ?_
  all_goals exact agree_readFree hkeys h (by decide) rfl

theorem JoinColumn.agree_read (h : JoinColumn.shape.Respelled v v') :
    Agree (JoinColumn.read v) (JoinColumn.read v') := by
  have hkeys : KeysApart JoinColumn.keys := by decide
  refine agree_readRecord hkeys (fun es es' h => ?_) h
  refine (Agree.map ?_ _).seq ?_
  all_goals exact agree_readFree hkeys h (by decide) rfl

theorem JoinTable.agree_read (h : JoinTable.shape.Respelled v v') :
    Agree (JoinTable.read v) (JoinTable.read v') := by
  have hkeys : KeysApart JoinTable.keys := by decide
  refine agree_readRecord hkeys (fun es es' h => ?_) h
  refine ((Agree.map ?name _).seq ?joinColumns).seq ?inverseColumns
  case name => exact agree_readFree hkeys h (by decide) rfl
  all_goals
    exact agree_readField hkeys h (by decide) fun _ _ => agree_readList fun _ _ => JoinColumn.agree_read

theorem Relation.agree_read (h : Relation.shape.Respelled v v') :
    Agree (Relation.read v) (Relation.read v') := by
  have hkeys : KeysApart Relation.keys := by decide
  refine (agree_readRecord hkeys (fun es es' h => ?_) h).ensure _
  refine ((((((Agree.map ?_ _).seq ?_).seq ?_).seq ?_).seq ?joinColumns).seq ?joinTable).seq ?_
  case joinColumns =>
    exact agree_readField hkeys h (by decide) fun _ _ =>
      agree_readOptional fun _ _ => agree_readList fun _ _ => JoinColumn.agree_read
  case joinTable =>
    exact agree_readField hkeys h (by decide) fun _ _ =>
      agree_readOptional fun _ _ => JoinTable.agree_read
  all_goals exact agree_readFree hkeys h (by decide) rfl

theorem Index.agree_read (h : Index.shape.Respelled v v') : Agree (Index.read v) (Index.read v') := by
  have hkeys : KeysApart Index.keys := by decide
  refine agree_readRecord hkeys (fun es es' h => ?_) h
  refine ((Agree.map ?_ _).seq ?_).seq ?_
  all_goals exact agree_readFree hkeys h (by decide) rfl

theorem Entity.keysApart : KeysApart Entity.keys := by decide

/-- Names are supplied on both sides or on neither. -/
theorem respelled_supplyNames (h : Entity.shape.Respelled v v') :
    Entity.shape.Respelled (supplyNames v) (supplyNames v') := by
  rcases h with rfl | ⟨es, es', rfl, rfl, h⟩
  · exact Shape.respelled_refl _ _
  · -- the name of an entity is no record
    have hname : Alike (fun e e' => e.2 = e'.2) (Key.find? ⟨"tscName", "tsc_name"⟩ es)
        (Key.find? ⟨"tscName", "tsc_name"⟩ es') :=
      h.find? Entity.keysApart (Shape.respelled_refl _) (by decide)
    rcases hname with ⟨hnone, hnone'⟩ | ⟨⟨s, name⟩, ⟨s', _⟩, hfind, hfind', rfl⟩
    · rw [supplyNames_of_unnamed rfl fun e he => (nomatch hnone.symm.trans he),
        supplyNames_of_unnamed rfl fun e he => (nomatch hnone'.symm.trans he)]
      exact .inr ⟨es, es', rfl, rfl, h⟩
    · by_cases hnull : name = .null
      · subst hnull
        have hnull : ∀ e, Key.find? ⟨"tscName", "tsc_name"⟩ es = some e → e.2 = .null := by
          intro e he
          cases hfind.symm.trans he
          rfl
        have hnull' : ∀ e, Key.find? ⟨"tscName", "tsc_name"⟩ es' = some e → e.2 = .null := by
          intro e he
          cases hfind'.symm.trans he
          rfl
        rw [supplyNames_of_unnamed rfl hnull, supplyNames_of_unnamed rfl hnull']
        exact .inr ⟨es, es', rfl, rfl, h⟩
      · rw [supplyNames_of_named rfl hfind hnull, supplyNames_of_named rfl hfind' hnull]
        refine .inr ⟨_, _, rfl, rfl, ?_⟩
        exact (h.supply Entity.keysApart (Shape.respelled_refl _) (by decide) name).supply
          Entity.keysApart (Shape.respelled_refl _) (by decide) name

theorem Entity.agree_read (h : Entity.shape.Respelled v v') :
    Agree (Entity.read v) (Entity.read v') := by
  have hkeys := Entity.keysApart
  refine agree_readRecord hkeys (fun es es' h => ?_) (respelled_supplyNames h)
  refine (((((((Agree.map ?_ _).seq ?_).seq ?_).seq ?_).seq ?_).seq ?columns).seq ?relations).seq
    ?indices
  case columns =>
    exact agree_readField hkeys h (by decide) fun _ _ hcolumns =>
      (agree_readList (fun _ _ => Column.agree_read) hcolumns).ensure _
  case relations =>
    exact agree_readField hkeys h (by decide) fun _ _ => agree_readList fun _ _ => Relation.agree_read
  case indices =>
    exact agree_readField hkeys h (by decide) fun _ _ => agree_readList fun _ _ => Index.agree_read
  all_goals exact agree_readFree hkeys h (by decide) rfl

theorem Options.agree_read {platform : String} (h : Options.shape.Respelled v v') :
    Agree (Options.read platform v) (Options.read platform v') := by
  have hkeys := Options.keysApart
  refine agree_readRecord hkeys (fun es es' h => ?_) h
  refine (((((((((((((Agree.map ?_ _).seq ?_).seq ?_).seq ?_).seq ?_).seq ?_).seq ?_).seq ?_).seq
    ?_).seq ?_).seq ?_).seq ?_).seq ?_).seq ?_
  all_goals exact agree_readFree hkeys h (by decide) rfl

/-! ## Documents -/

/-- The two keys that a document may hold entities under, and the two for options. -/
def documentKeys : List Key := [⟨"entities", "tables"⟩, ⟨"config", "options"⟩]

/-- Documents hold a list of entities, and options. -/
def documentShape : Shape := .record documentKeys fun k =>
  if k.camel = "entities" then .list Entity.shape else Options.shape

theorem firstOf_pair (es : Entries) (a b : String) : firstOf es [a, b] = Key.find? ⟨a, b⟩ es := by
  unfold firstOf Key.find?
  rw [List.findSome?_cons, List.findSome?_cons, List.findSome?_nil]
  cases es.lookup a with
  | some v => rfl
  | none =>
      cases es.lookup b with
      | some v => rfl
      | none => rfl

/-- The items of the list of entities, if there is one. -/
def entityItems? (doc : Entries) : Option (List Value) :=
  (firstOf doc entityKeys).bind fun e => e.2.listItems?

theorem entityItems?_eq_some {doc : Entries} {items : List Value} :
    entityItems? doc = some items ↔
      ∃ key v, firstOf doc entityKeys = some (key, v) ∧ v.listItems? = some items :=
  Option.bind_eq_some_iff.trans Prod.exists

/-- The options of a document, if they are a mapping where there are any. -/
def givenOptions? (doc : Entries) : Option Value := (optionsOf doc).2.toOption

theorem givenOptions?_eq_some {doc : Entries} {options : Value} :
    givenOptions? doc = some options ↔ (optionsOf doc).2 = .ok options :=
  ⟨Results.eq_ok_of_toOption, fun h => congrArg Except.toOption h⟩

variable {platform : String} {doc doc' : Entries}

/-- The entities of a respelled document are respelled. -/
theorem alike_entityItems? (h : Alike (fun e e' => (Shape.list Entity.shape).Respelled e.2 e'.2)
      (firstOf doc entityKeys) (firstOf doc' entityKeys)) :
    Alike (List.Forall₂ Entity.shape.Respelled) (entityItems? doc) (entityItems? doc') := by
  unfold entityItems?
  rcases h with ⟨hnone, hnone'⟩ | ⟨⟨s, v⟩, ⟨s', v'⟩, hfirst, hfirst', hvalue⟩
  · rw [hnone, hnone']
    exact .inl ⟨rfl, rfl⟩
  · rw [hfirst, hfirst']
    rcases hvalue with rfl | ⟨items, items', rfl, rfl, hitems⟩
    · cases hlist : v.listItems? with
      | none => exact .inl ⟨hlist, hlist⟩
      | some items =>
          exact .inr ⟨items, items, hlist, hlist, List.forall₂_same.mpr fun v _ =>
            Shape.respelled_refl _ v⟩
    · exact .inr ⟨items, items', rfl, rfl, hitems⟩

/-- What a document gives as options, other than nothing. -/
theorem givenOptions?_of_ne {key : String} {v : Value} (h : firstOf doc optionKeys = some (key, v))
    (hv : v ≠ .null) : givenOptions? doc = v.entries?.map .map := by
  unfold givenOptions? optionsOf
  rw [h]
  split
  · rename_i hnone
    exact nomatch hnone
  · rename_i hnull
    cases hnull
    exact absurd rfl hv
  · rename_i hsome
    cases hsome
    cases v.entries? <;> rfl

/-- The options of a respelled document are respelled. -/
theorem alike_givenOptions? (h : Alike (fun e e' => Options.shape.Respelled e.2 e'.2)
      (firstOf doc optionKeys) (firstOf doc' optionKeys)) :
    Alike Options.shape.Respelled (givenOptions? doc) (givenOptions? doc') := by
  have hnothing : Alike Options.shape.Respelled (some (.map [])) (some (.map [])) :=
    .inr ⟨_, _, rfl, rfl, Shape.respelled_refl _ _⟩
  rcases h with ⟨hnone, hnone'⟩ | ⟨⟨s, v⟩, ⟨s', v'⟩, hfirst, hfirst', hvalue⟩
  · unfold givenOptions? optionsOf
    rw [hnone, hnone']
    exact hnothing
  · by_cases hnull : v = .null
    · have hnull' : v' = .null := (Shape.null_iff hvalue).mp hnull
      unfold givenOptions? optionsOf
      rw [hfirst, hfirst', hnull, hnull']
      exact hnothing
    · have hnull' : v' ≠ .null := mt (Shape.null_iff hvalue).mpr hnull
      rw [givenOptions?_of_ne hfirst hnull, givenOptions?_of_ne hfirst' hnull']
      rcases hvalue with rfl | ⟨es, es', rfl, rfl, hes⟩
      · cases v.entries? with
        | none => exact .inl ⟨rfl, rfl⟩
        | some es => exact .inr ⟨_, _, rfl, rfl, Shape.respelled_refl _ _⟩
      · exact .inr ⟨.map es, .map es', rfl, rfl, .inr ⟨es, es', rfl, rfl, hes⟩⟩

/-- Entities and options are read from their values: all of them valid, and the entities of different
    names. -/
def ReadsAs (platform : String) (items : List Value) (options : Value) (entities : List Entity)
    (o : Options) : Prop :=
  List.Forall₂ (fun v e => Entity.read v = .valid e) items entities ∧
    repeated (entities.map Entity.name) = [] ∧ Options.read platform options = .valid o

/-- **A document is read exactly if** its entities and its options are. -/
theorem readDocument_eq_ok_iff {entities : List Entity} {o : Options} :
    (readDocument platform doc).result = .ok (entities, o) ↔ ∃ items, entityItems? doc = some items ∧
      ∃ options, givenOptions? doc = some options ∧ ReadsAs platform items options entities o := by
  simp only [entityItems?_eq_some, givenOptions?_eq_some, ReadsAs, readDocument_eq_ok,
    readEntityList_eq_ok]
  constructor
  · rintro ⟨key, v, items, options, hfirst, hitems, hoptions, hread, hdistinct, hvalid⟩
    exact ⟨items, ⟨key, v, hfirst, hitems⟩, options, hoptions, hread, hdistinct, hvalid⟩
  · rintro ⟨items, ⟨key, v, hfirst, hitems⟩, options, hoptions, hread, hdistinct, hvalid⟩
    exact ⟨key, v, items, options, hfirst, hitems, hoptions, hread, hdistinct, hvalid⟩

/-- Entities or options stop the reading: an entity after valid ones, or the options after all of them. -/
def Stops (platform : String) (items : List Value) (options : Value) (cause : Json.Unwritable) : Prop :=
  (readEntityList 0 items).result = .error (.unwritable cause) ∨
    ∃ entities, List.Forall₂ (fun v e => Entity.read v = .valid e) items entities ∧
      repeated (entities.map Entity.name) = [] ∧
        (Options.read platform options).obstacle? = some cause

/-- **A document stops the reading exactly if** its entities or its options do. -/
theorem readDocument_stops_iff {cause : Json.Unwritable} :
    (readDocument platform doc).result = .error (.unwritable cause) ↔
      ∃ items, entityItems? doc = some items ∧
        ∃ options, givenOptions? doc = some options ∧ Stops platform items options cause := by
  simp only [entityItems?_eq_some, givenOptions?_eq_some, Stops, readDocument_eq_unwritable,
    readEntityList_eq_unwritable, ← readEntityList_eq_ok (n := 0), Options.obstacle?_read, Prod.exists]
  constructor
  · rintro ⟨key, v, items, options, hfirst, hitems, hoptions, hstop⟩
    exact ⟨items, ⟨key, v, hfirst, hitems⟩, options, hoptions, hstop⟩
  · rintro ⟨items, ⟨key, v, hfirst, hitems⟩, options, hoptions, hstop⟩
    exact ⟨key, v, items, options, hfirst, hitems, hoptions, hstop⟩

/-- Entities that agree one by one stop the reading together. -/
theorem readEntityList_stops_iff {items items' : List Value}
    (h : List.Forall₂ (fun v v' => Agree (Entity.read v) (Entity.read v')) items items')
    {cause : Json.Unwritable} {n : Nat} :
    (readEntityList n items).result = .error (.unwritable cause) ↔
      (readEntityList n items').result = .error (.unwritable cause) := by
  induction h generalizing n with
  | nil => exact Iff.rfl
  | @cons v v' _ _ hhead _ ih =>
      have hvalid := hhead.valid
      have hobstacle := hhead.obstacle
      rw [readEntityList, readEntityList]
      cases hread : Entity.read v with
      | valid e =>
          rw [(hvalid e).mp hread]
          simpa only [Results.map_eq_error] using ih
      | invalid fs =>
          cases hread' : Entity.read v' with
          | valid e => cases hread.symm.trans ((hvalid e).mpr hread')
          | invalid fs' => simp
          | aborted c =>
              rw [hread, hread'] at hobstacle
              cases hobstacle
      | aborted c =>
          rw [hread] at hobstacle
          rw [Checked.obstacle?_eq_some.mp hobstacle.symm]

/-- **A respelled document gives the same entities and options**, and is stopped by the same. -/
theorem readDocument_agree (platform : String)
    (h : documentShape.Respelled (.map doc) (.map doc')) :
    (∀ read, (readDocument platform doc).result = .ok read ↔
      (readDocument platform doc').result = .ok read) ∧
    ∀ cause, (readDocument platform doc).result = .error (.unwritable cause) ↔
      (readDocument platform doc').result = .error (.unwritable cause) := by
  rcases h with hsame | ⟨_, _, hdoc, hdoc', h⟩
  · cases hsame
    exact ⟨fun _ => Iff.rfl, fun _ => Iff.rfl⟩
  · cases hdoc
    cases hdoc'
    have hkeys : KeysApart documentKeys := by decide
    have hentities := h.find? hkeys (Shape.respelled_refl _) (k := ⟨"entities", "tables"⟩) (by decide)
    have hoptions := h.find? hkeys (Shape.respelled_refl _) (k := ⟨"config", "options"⟩) (by decide)
    rw [← firstOf_pair, ← firstOf_pair] at hentities hoptions
    have hagree : ∀ items items', List.Forall₂ Entity.shape.Respelled items items' →
        List.Forall₂ (fun v v' => Agree (Entity.read v) (Entity.read v')) items items' :=
      fun _ _ hitems => hitems.imp fun _ _ => Entity.agree_read
    refine ⟨fun ⟨entities, o⟩ => ?_, fun cause => ?_⟩
    · rw [readDocument_eq_ok_iff, readDocument_eq_ok_iff]
      refine (alike_entityItems? hentities).exists_iff fun items items' hitems =>
        (alike_givenOptions? hoptions).exists_iff fun options options' hgiven => ?_
      exact and_congr (forall₂_agree (hagree _ _ hitems))
        (and_congr_right fun _ => (Options.agree_read hgiven).valid o)
    · rw [readDocument_stops_iff, readDocument_stops_iff]
      refine (alike_entityItems? hentities).exists_iff fun items items' hitems =>
        (alike_givenOptions? hoptions).exists_iff fun options options' hgiven => ?_
      refine or_congr (readEntityList_stops_iff (hagree _ _ hitems)) (exists_congr fun entities => ?_)
      rw [forall₂_agree (hagree _ _ hitems), (Options.agree_read hgiven).obstacle]

theorem DocumentFault.cases_unwritable (f : DocumentFault) :
    (∃ cause, f = .unwritable cause) ∨ f.label = "ConfigurationError" := by
  cases f with
  | unwritable cause => exact .inl ⟨cause, rfl⟩
  | _ => exact .inr rfl

/-- **How a document spells its keys does not matter.** Both spellings give the same entities and
    options, or both are rejected for a fault of the document. Faults of another kind come only of a
    document that no text is read as, since too many collections stand inside each other in it; and then
    they come of both spellings. -/
theorem readDocument_respelled (platform : String) (hdoc : (Value.map doc).plain = true)
    (h : documentShape.Respelled (.map doc) (.map doc')) :
    (∃ read, (readDocument platform doc).result = .ok read ∧
      (readDocument platform doc').result = .ok read) ∨
    ∃ f f', (readDocument platform doc).result = .error f ∧
      (readDocument platform doc').result = .error f' ∧ f'.label = f.label ∧
        (f.label = "ConfigurationError" ∨
          Json.depthLimit < (Value.map doc).depth ∧ f.label = "RecursionError") := by
  obtain ⟨hok, hstop⟩ := readDocument_agree platform h
  cases hresult : (readDocument platform doc).result with
  | ok read => exact .inl ⟨read, rfl, (hok read).mp hresult⟩
  | error f =>
      cases hresult' : (readDocument platform doc').result with
      | ok read => exact nomatch hresult.symm.trans ((hok read).mpr hresult')
      | error f' =>
          refine .inr ⟨f, f', rfl, rfl, ?_, label_of_isTree (Json.isTree_of_plain hdoc) hresult⟩
          rcases DocumentFault.cases_unwritable f with ⟨cause, rfl⟩ | hlabel
          · cases hresult'.symm.trans ((hstop cause).mp hresult)
            rfl
          · rcases DocumentFault.cases_unwritable f' with ⟨cause, rfl⟩ | hlabel'
            · cases hresult.symm.trans ((hstop cause).mpr hresult')
              rfl
            · rw [hlabel, hlabel']

/-- The document of one entity, with every key in its other spelling. -/
def userRespelled : Entries :=
  [(.text "entities", .list [.map
    [(.text "tsc_name", .text "User"),
     (.text "columns", .list [.map [(.text "tscName", .text "id"), (.text "default", .int 1)]])]])]

theorem respelled_userDocument : (Value.map userDocument).plain = true ∧
    documentShape.Respelled (.map userDocument) (.map userRespelled) ∧
    ((∃ read, (readDocument "\n" userDocument).result = .ok read ∧
      (readDocument "\n" userRespelled).result = .ok read) ∨
    ∃ f f', (readDocument "\n" userDocument).result = .error f ∧
      (readDocument "\n" userRespelled).result = .error f' ∧ f'.label = f.label ∧
        (f.label = "ConfigurationError" ∨
          Json.depthLimit < (Value.map userDocument).depth ∧ f.label = "RecursionError")) := by
  have hplain : (Value.map userDocument).plain = true := by decide
  have hcolumn : Column.shape.Respelled
      (.map [(.text "tsc_name", .text "id"), (.text "default", .int 1)])
      (.map [(.text "tscName", .text "id"), (.text "default", .int 1)]) := by
    refine .inr ⟨_, _, rfl, rfl, .cons (.inr ?_) (.cons (.inl rfl) .nil)⟩
    exact ⟨⟨"tscName", "tsc_name"⟩, by decide, .inr rfl, .inl rfl, rfl,
      .inr (givenOnce_of_nodup (by simp) (.inl rfl))⟩
  have hentity : Entity.shape.Respelled
      (.map [(.text "tscName", .text "User"), (.text "columns", .list [.map
        [(.text "tsc_name", .text "id"), (.text "default", .int 1)]])])
      (.map [(.text "tsc_name", .text "User"), (.text "columns", .list [.map
        [(.text "tscName", .text "id"), (.text "default", .int 1)]])]) := by
    refine .inr ⟨_, _, rfl, rfl, .cons (.inr ?_) (.cons (.inr ?_) .nil)⟩
    · exact ⟨⟨"tscName", "tsc_name"⟩, by decide, .inl rfl, .inr rfl, rfl,
        .inr (givenOnce_of_nodup (by simp) (.inr rfl))⟩
    · exact ⟨.single "columns", by decide, .inl rfl, .inl rfl,
        .inr ⟨_, _, rfl, rfl, .cons hcolumn .nil⟩, .inl rfl⟩
  have hdocument : documentShape.Respelled (.map userDocument) (.map userRespelled) := by
    refine .inr ⟨_, _, rfl, rfl, .cons (.inr ?_) .nil⟩
    exact ⟨⟨"entities", "tables"⟩, by decide, .inr rfl, .inl rfl,
      .inr ⟨_, _, rfl, rfl, .cons hentity .nil⟩, .inr (List.pairwise_singleton _ _)⟩
  exact ⟨hplain, hdocument, readDocument_respelled "\n" hplain hdocument⟩

end Scaffold.Schema
