import Scaffold.Proofs.Results
import Scaffold.Schema.Document

/-!
# `Scaffold.Proofs.Schema.Accepted` — what is known of entities and options that were accepted

A record is accepted only if each of its fields is (`seq_eq_valid`, `readRecord_eq_valid`). So the
options of a run have legal styles and an extension of letters and digits (`legal_of_read`). A document
is read only if its entities and its options are (`readDocument_eq_ok`), and its entities have different
names (`nodup_of_accepted`).

## Contents
- **Inversion.** `Checked.map_eq_valid`, `Checked.seq_eq_valid`, `Checked.ensure_eq_valid_iff`,
  `readRecord_eq_valid`, `readField_eq_valid`.
- **Options.** `Options.Legal`, `legal_of_read`.
- **Documents.** `lookup_of_firstOf`, `Accepted`, `combine_eq_ok`, `readDocument_eq_ok`,
  `readDocument_eq_error`, `readDocument_of_combine`, `nodup_of_accepted`.
-/

namespace Scaffold.Schema

open Naming (CaseStyle)

/-! ## Inversion -/

namespace Checked

variable {α β : Type}

theorem map_eq_valid {f : α → β} {x : Checked α} {b : β} :
    f <$> x = .valid b ↔ ∃ a, x = .valid a ∧ f a = b := by
  show x.map f = .valid b ↔ _
  cases x <;> simp [map]

/-- A function and its argument both have to be there. -/
theorem seq_eq_valid {f : Checked (α → β)} {x : Checked α} {b : β} :
    f <*> x = .valid b ↔ ∃ g a, f = .valid g ∧ x = .valid a ∧ g a = b := by
  show f.seq (fun _ => x) = .valid b ↔ _
  cases f with
  | valid g =>
      show x.map g = .valid b ↔ _
      cases x with
      | valid a => simp [map]
      | invalid fs => simp [map]
      | aborted c => simp [map]
  | invalid fs => cases x <;> simp [seq]
  | aborted c => simp [seq]

/-- What has to pass a test was there, and passes it. -/
theorem ensure_eq_valid_iff {test : α → Option String} {x : Checked α} {a : α} :
    x.ensure test = .valid a ↔ x = .valid a ∧ test a = none := by
  cases x with
  | valid b =>
      simp only [ensure, valid.injEq]
      split
      · rename_i htest
        rw [valid.injEq]
        exact ⟨fun h => ⟨h, h ▸ htest⟩, fun h => h.1⟩
      · rename_i htest
        constructor
        · intro h
          exact nomatch h
        · rintro ⟨rfl, h⟩
          exact nomatch htest.symm.trans h
  | invalid fs =>
      constructor
      · intro h
        exact nomatch h
      · intro h
        exact nomatch h.1
  | aborted c =>
      constructor
      · intro h
        exact nomatch h
      · intro h
        exact nomatch h.1

end Checked

variable {α : Type}

theorem within_eq_valid {step : Step} {x : Checked α} {a : α} :
    x.within step = .valid a ↔ x = .valid a := by
  cases x <;> simp [Checked.within]

/-- A field that was read either stood there or has a default. -/
theorem readField_eq_valid {es : Entries} {k : Key} {read : Value → Checked α} {default : Option α}
    {a : α} (h : readField es k read default = .valid a) :
    (∃ spelling v, k.find? es = some (spelling, v) ∧ read v = .valid a) ∨ default = some a := by
  unfold readField at h
  split at h
  · rename_i spelling v hk
    exact .inl ⟨spelling, v, hk, within_eq_valid.mp h⟩
  · split at h
    · cases h
      exact .inr rfl
    · exact absurd h (by simp [Checked.within, Checked.fault])

/-- A field has every property that what is read has and the default has. -/
theorem of_readField {P : α → Prop} {es : Entries} {k : Key} {read : Value → Checked α}
    {default : Option α} {a : α} (h : readField es k read default = .valid a)
    (hread : ∀ v b, read v = .valid b → P b) (hdefault : ∀ b, default = some b → P b) : P a := by
  rcases readField_eq_valid h with ⟨_, v, _, hv⟩ | hd
  · exact hread v a hv
  · exact hdefault a hd

/-- A record that was read is a mapping, and its fields were read. -/
theorem readRecord_eq_valid {model : String} {keys : List Key} {body : Entries → Checked α}
    {v : Value} {a : α} (h : readRecord model keys body v = .valid a) :
    ∃ es, v.entries? = some es ∧ body es = .valid a := by
  unfold readRecord at h
  split at h
  · rename_i es hes
    simp only at h
    split at h
    · exact ⟨es, hes, h⟩
    · -- keys that no field has read spoil the record
      rename_i fs hne
      exfalso
      generalize body es = b at h
      cases b <;> exact absurd h (by simp [SeqLeft.seqLeft, Checked.seq, Checked.map])
  · exact absurd h (by simp [Checked.fault])

/-! ## Options -/

/-- Options that a mapping can give: every style is legal at its place, and the extension consists of
    letters and digits. -/
structure Options.Legal (o : Options) : Prop where
  entityCase : o.entityCase ∈ CaseStyle.forEntities
  fileCase : o.fileCase ∈ CaseStyle.forFiles
  propertyCase : o.propertyCase ∈ CaseStyle.forProperties
  extension : o.extension ≠ "" ∧ ∀ c ∈ o.extension.toList, Text.isAlnum c = true

/-- The extension that files have if nothing is said. -/
theorem alnum_ts : "ts" ≠ "" ∧ ∀ c ∈ "ts".toList, Text.isAlnum c = true :=
  ⟨by decide, List.all_eq_true.mp (by decide : "ts".toList.all Text.isAlnum = true)⟩

@[simp] theorem complaint_ne_valid {α : Type} (cause : Option Json.Unwritable) (reason : String)
    (a : α) : Checked.complaint cause reason ≠ .valid a := by
  unfold Checked.complaint Checked.unwritable
  repeat' split
  all_goals exact nofun

theorem readStyle_eq_valid {legal : List CaseStyle} {place : String} {v : Value} {s : CaseStyle} :
    Options.readStyle legal place v = .valid s ↔ Choice.ofValue? v = some s ∧ s ∈ legal := by
  unfold Options.readStyle CaseStyle.read
  cases (Choice.ofValue? v : Option CaseStyle) with
  | none => simp
  | some t =>
      by_cases ht : t ∈ legal
      · simp only [List.contains_iff_mem.mpr ht, if_true, Checked.valid.injEq, Option.some.injEq]
        exact ⟨fun h => ⟨h, h ▸ ht⟩, fun h => h.1⟩
      · simp only [List.contains_iff_mem, ht, if_false, complaint_ne_valid, Option.some.injEq,
          false_iff, not_and]
        rintro rfl
        exact ht

theorem legal_of_readStyle {legal : List CaseStyle} {place : String} {v : Value} {s : CaseStyle}
    (h : Options.readStyle legal place v = .valid s) : s ∈ legal := (readStyle_eq_valid.mp h).2

theorem alnum_of_readExtension {v : Value} {s : String} (h : readExtension v = .valid s) :
    s ≠ "" ∧ ∀ c ∈ s.toList, Text.isAlnum c = true := by
  unfold readExtension at h
  split at h
  · split at h
    · rename_i hs
      cases h
      exact ⟨hs.1, fun c hc => List.all_eq_true.mp hs.2 c hc⟩
    · exact absurd h (by simp [Checked.fault])
  · rename_i hne
    exact absurd h (fun h => hne s h)

/-- **Options that were read are legal.** -/
theorem legal_of_read {platform : String} {v : Value} {o : Options}
    (h : Options.read platform v = .valid o) : o.Legal := by
  obtain ⟨es, -, hbody⟩ := readRecord_eq_valid h
  simp only [Checked.seq_eq_valid, Checked.map_eq_valid] at hbody
  -- the fields stand nested, the last one outermost
  obtain ⟨_, extension, ⟨_, _, ⟨_, _, ⟨_, _, ⟨_, _, ⟨_, _, ⟨_, _, ⟨_, _, ⟨_, propertyCase,
    ⟨_, entityCase, ⟨_, fileCase, hfront, hfile, rfl⟩, hentity, rfl⟩, hproperty, rfl⟩, -, rfl⟩, -,
    rfl⟩, -, rfl⟩, -, rfl⟩, -, rfl⟩, -, rfl⟩, -, rfl⟩, hextension, rfl⟩ := hbody
  obtain ⟨_, _, ⟨_, _, ⟨_, -, rfl⟩, -, rfl⟩, -, rfl⟩ := hfront
  constructor
  · exact of_readField hentity (fun _ _ => legal_of_readStyle) fun s hs =>
      Option.some.inj hs ▸ (by decide : CaseStyle.pascal ∈ CaseStyle.forEntities)
  · exact of_readField hfile (fun _ _ => legal_of_readStyle) fun s hs =>
      Option.some.inj hs ▸ (by decide : CaseStyle.pascal ∈ CaseStyle.forFiles)
  · exact of_readField hproperty (fun _ _ => legal_of_readStyle) fun s hs =>
      Option.some.inj hs ▸ (by decide : CaseStyle.camel ∈ CaseStyle.forProperties)
  · exact of_readField (P := fun s => s ≠ "" ∧ ∀ c ∈ s.toList, Text.isAlnum c = true) hextension
      (fun _ _ => alnum_of_readExtension) fun s hs =>
        Option.some.inj hs ▸ alnum_ts

/-- The options of a document that says nothing are legal. -/
theorem legal_standard (platform : String) : (Options.standard platform).Legal where
  entityCase := (by decide : CaseStyle.pascal ∈ CaseStyle.forEntities)
  fileCase := (by decide : CaseStyle.pascal ∈ CaseStyle.forFiles)
  propertyCase := (by decide : CaseStyle.camel ∈ CaseStyle.forProperties)
  extension := alnum_ts

theorem read_nil (platform : String) :
    Options.read platform (.map []) = .valid (Options.standard platform) := rfl

/-! ## Documents -/

/-- What comes first under some keys stands under one of them. -/
theorem lookup_of_firstOf {doc : Entries} {keys : List String} {key : String} {v : Value}
    (h : firstOf doc keys = some (key, v)) : key ∈ keys ∧ doc.lookup key = some v := by
  obtain ⟨k, hk, hfound⟩ := List.exists_of_findSome?_eq_some h
  obtain ⟨w, hw, hentry⟩ := Option.map_eq_some_iff.mp hfound
  cases hentry
  exact ⟨hk, hw⟩

/-- Entities that a document holds. -/
def Accepted (es : List Entity) : Prop :=
  ∃ platform doc o, (readDocument platform doc).result = .ok (es, o)

theorem count_le_one_of_repeated {names : List String} (h : repeated names = []) (n : String) :
    names.count n ≤ 1 := by
  unfold repeated at h
  have hnil : (names.filter fun n => 1 < names.count n).eraseDups = [] := by
    have hlen := congrArg List.length h
    rw [List.length_mergeSort, List.length_nil] at hlen
    exact List.length_eq_zero_iff.mp hlen
  refine Nat.le_of_not_lt fun hn => ?_
  have hmem : n ∈ names.filter fun n => 1 < names.count n := by
    refine List.mem_filter.mpr ⟨List.count_pos_iff.mp (by omega), ?_⟩
    simpa using hn
  rw [← List.mem_eraseDups, hnil] at hmem
  exact absurd hmem List.not_mem_nil

/-- Entities and options go together if the entities have different names and the options are read. -/
theorem combine_eq_ok {platform : String} {options : Value} {es es' : List Entity} {o : Options} :
    combine platform options es = .ok (es', o) ↔
      es' = es ∧ repeated (es.map Entity.name) = [] ∧ Options.read platform options = .valid o := by
  unfold combine readOptionValue
  cases repeated (es.map Entity.name) with
  | cons n ns => simp
  | nil =>
      cases Options.read platform options with
      | valid o' => simp [Except.map, eq_comm]
      | invalid fs => simp [Except.map]
      | aborted cause => simp [Except.map]

/-- **A document is read exactly if** it has a list of entities and a mapping of options, and each is
    read. -/
theorem readDocument_eq_ok {platform : String} {doc : Entries} {es : List Entity} {o : Options} :
    (readDocument platform doc).result = .ok (es, o) ↔
      ∃ key v items options, firstOf doc entityKeys = some (key, v) ∧ v.listItems? = some items ∧
        (optionsOf doc).2 = .ok options ∧ (readEntityList 0 items).result = .ok es ∧
        repeated (es.map Entity.name) = [] ∧ Options.read platform options = .valid o := by
  unfold readDocument
  constructor
  · intro h
    split at h
    · exact nomatch h
    · rename_i key v hfirst
      split at h
      · exact nomatch h
      · rename_i items hitems
        split at h
        · exact nomatch h
        · rename_i options hoptions
          obtain ⟨es', hread, h⟩ := Results.bind_eq_ok.mp h
          obtain ⟨rfl, hnil, hopt⟩ := combine_eq_ok.mp h
          exact ⟨key, v, items, options, hfirst, hitems, by rw [hoptions], hread, hnil, hopt⟩
  · rintro ⟨key, v, items, options, hfirst, hitems, hoptions, hread, hnil, hopt⟩
    have hpair : optionsOf doc = ((optionsOf doc).1, .ok options) := Prod.ext rfl hoptions
    rw [hfirst, hpair]
    simp only [hitems, hread]
    exact combine_eq_ok.mpr ⟨rfl, hnil, hopt⟩

/-- **A document is refused** for what is missing first: a list of entities, a mapping of options,
    entities and options that can be read. -/
theorem readDocument_eq_error {platform : String} {doc : Entries} {f : DocumentFault} :
    (readDocument platform doc).result = .error f ↔
      (firstOf doc entityKeys = none ∧ f = .noEntities) ∨
      (∃ key v, firstOf doc entityKeys = some (key, v) ∧ v.listItems? = none ∧
        f = .entitiesNoList key v.kind) ∨
      ∃ key v items, firstOf doc entityKeys = some (key, v) ∧ v.listItems? = some items ∧
        ((optionsOf doc).2 = .error f ∨ ∃ options, (optionsOf doc).2 = .ok options ∧
          ((readEntityList 0 items).result = .error f ∨ ∃ es,
            (readEntityList 0 items).result = .ok es ∧ combine platform options es = .error f)) := by
  unfold readDocument
  cases firstOf doc entityKeys with
  | none => simp [eq_comm]
  | some entry =>
      cases hitems : entry.2.listItems? with
      | none => simp [hitems, Prod.ext_iff, eq_comm]
      | some items =>
          cases optionsOf doc with
          | mk log options =>
              cases options with
              | error g => simp [hitems, Prod.ext_iff]
              | ok options => simp [hitems, Prod.ext_iff, Results.bind_eq_error]

/-- A document whose entities come out with different names is read, if its options are. -/
theorem readDocument_of_combine {platform : String} {doc : Entries} {options : Value}
    {es : List Entity} {o : Options} (hes : repeated (es.map Entity.name) = [])
    (ho : Options.read platform options = .valid o)
    (hdoc : (readDocument platform doc).result = combine platform options es) :
    (readDocument platform doc).result = .ok (es, o) :=
  hdoc.trans (combine_eq_ok.mpr ⟨rfl, hes, ho⟩)

/-- **The entities of a document have different names.** -/
theorem nodup_of_accepted {es : List Entity} (h : Accepted es) : (es.map Entity.name).Nodup := by
  obtain ⟨platform, doc, o, h⟩ := h
  obtain ⟨_, _, _, _, -, -, -, -, hnil, -⟩ := readDocument_eq_ok.mp h
  exact List.nodup_iff_count.mpr (count_le_one_of_repeated hnil)

end Scaffold.Schema
