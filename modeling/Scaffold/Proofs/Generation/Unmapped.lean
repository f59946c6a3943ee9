import Scaffold.Proofs.Generation.Unforeseen
import Scaffold.Proofs.Schema.Respelling

/-!
# `Scaffold.Proofs.Generation.Unmapped` — options that are no mapping

A document whose options are there and no mapping is refused (`Unmapped.readDocument`). Where options
are put over those of the document, they are put over whatever is there first, and what is read then is a
mapping in any case. So nothing checks what the document gave: what counts as nothing is taken for no
options, pairs are taken for a mapping, and everything else ends the run with a fault that nothing
expects (`generateFile_unmapped`).

## Contents
- **Documents.** `firstOf_put_self`, `Unmapped`, `optionsOf_put`, `optionsOf_eq_error`,
  `readDocument_eq_optionsNoMapping`, `Unmapped.readDocument`.
- **Overriding.** `takenFor`, `overrideOptions_eq`, `overrideOptions_taken`.
- **Runs.** `Refused`, `refused_iff`, `generateFile_of_unmade`, `generateFile_eq_optionsNoMapping`,
  `generateFile_congr`.
- **The theorem.** `Overlooked`, `generateFile_unmapped`, `listedFile_generated`.
-/

namespace Scaffold

/-! ## Documents -/

namespace Schema

variable {doc : Entries} {ks : List String} {key kind : String} {v : Value}

/-- The key that counted counts still, with the value that was put. -/
theorem firstOf_put_self (h : firstOf doc ks = some (key, v)) (x : Value) :
    firstOf (doc.put (.text key) x) ks = some (key, x) := by
  unfold firstOf at h ⊢
  induction ks with
  | nil => exact nomatch h
  | cons k ks ih =>
      rw [List.findSome?_cons] at h ⊢
      rw [Entries.lookup_put]
      by_cases hk : key = k
      · subst hk
        rw [if_pos rfl]
        rfl
      · rw [if_neg hk]
        cases hlookup : doc.lookup k with
        | some w =>
            rw [hlookup] at h
            cases h
            exact absurd rfl hk
        | none =>
            rw [hlookup] at h
            exact ih h

/-- Other keys are not touched. -/
theorem firstOf_put_of_notMem (h : key ∉ ks) (x : Value) :
    firstOf (doc.put (.text key) x) ks = firstOf doc ks := by
  unfold firstOf
  induction ks with
  | nil => rfl
  | cons k ks ih =>
      obtain ⟨hk, hks⟩ := List.ne_and_not_mem_of_not_mem_cons h
      rw [List.findSome?_cons, List.findSome?_cons, Entries.lookup_put, if_neg hk, ih hks]

/-- **The options of a document are there and no mapping.** -/
structure Unmapped (doc : Entries) (key : String) (v : Value) : Prop where
  first : firstOf doc optionKeys = some (key, v)
  present : v ≠ .null
  noMapping : v.entries? = none

/-- A mapping that was put in the place of the options is read for them. -/
theorem optionsOf_put (h : firstOf doc optionKeys = some (key, v)) (es : Entries) :
    optionsOf (doc.put (.text key) (.map es)) = ([], .ok (.map es)) := by
  unfold optionsOf
  rw [firstOf_put_self h]
  rfl

/-- The entities are as before. -/
theorem entityItems?_put (h : firstOf doc optionKeys = some (key, v)) (x : Value) :
    entityItems? (doc.put (.text key) x) = entityItems? doc := by
  have hapart : ∀ k ∈ optionKeys, k ∉ entityKeys := by decide
  unfold entityItems?
  rw [firstOf_put_of_notMem (hapart key (lookup_of_firstOf h).1)]

theorem optionsOf_eq_error {f : DocumentFault} : (optionsOf doc).2 = .error f ↔
    ∃ key v, Unmapped doc key v ∧ f = .optionsNoMapping key v.kind := by
  unfold optionsOf
  constructor
  · intro h
    split at h
    · exact nomatch h
    · exact nomatch h
    · rename_i key v hpresent hfirst
      split at h
      · exact nomatch h
      · rename_i hnone
        cases h
        exact ⟨key, v, ⟨hfirst, hpresent, hnone⟩, rfl⟩
  · rintro ⟨key, v, ⟨hfirst, hpresent, hnone⟩, rfl⟩
    rw [hfirst]
    split
    · rename_i hsome
      exact nomatch hsome
    · rename_i hnull
      cases hnull
      exact absurd rfl hpresent
    · rename_i hsome
      cases hsome
      rw [hnone]

theorem readEntityList_ne_optionsNoMapping (n : Nat) (xs : List Value) :
    (readEntityList n xs).result ≠ .error (.optionsNoMapping key kind) := by
  induction xs generalizing n with
  | nil => exact nofun
  | cons x xs ih =>
      unfold readEntityList
      split
      · exact nofun
      · exact nofun
      · exact mt Results.map_eq_error.mp (ih (n + 1))

theorem combine_ne_optionsNoMapping {platform : String} {options : Value} {es : List Entity} :
    combine platform options es ≠ .error (.optionsNoMapping key kind) := by
  unfold combine readOptionValue
  repeat' split
  all_goals simp [Except.map]

variable {platform : String}

/-- **That the options are no mapping is told exactly if** they are none, and the entities are a
    list. -/
theorem readDocument_eq_optionsNoMapping :
    (readDocument platform doc).result = .error (.optionsNoMapping key kind) ↔
      ∃ items v, entityItems? doc = some items ∧ Unmapped doc key v ∧ v.kind = kind := by
  rw [readDocument_eq_error]
  constructor
  · rintro (⟨-, ⟨⟩⟩ | ⟨_, _, -, -, ⟨⟩⟩ | ⟨_, v, items, hfirst, hitems, hfail⟩)
    obtain hfail | ⟨options, -, hfail | ⟨es, -, hfail⟩⟩ := hfail
    · obtain ⟨_, u, hunmapped, ⟨⟩⟩ := optionsOf_eq_error.mp hfail
      exact ⟨items, u, entityItems?_eq_some.mpr ⟨_, v, hfirst, hitems⟩, hunmapped, rfl⟩
    · exact absurd hfail (readEntityList_ne_optionsNoMapping 0 items)
    · exact absurd hfail combine_ne_optionsNoMapping
  · rintro ⟨items, u, hitems, hunmapped, rfl⟩
    obtain ⟨_, v, hfirst, hlist⟩ := entityItems?_eq_some.mp hitems
    exact .inr (.inr ⟨_, v, items, hfirst, hlist, .inl (optionsOf_eq_error.mpr ⟨key, u, hunmapped, rfl⟩)⟩)

/-- Without a list of entities a document is refused. -/
theorem readDocument_of_no_items (h : entityItems? doc = none) :
    ∃ f, (readDocument platform doc).result = .error f ∧ f.label = "ConfigurationError" := by
  unfold entityItems? at h
  cases hfirst : firstOf doc entityKeys with
  | none => exact ⟨_, readDocument_eq_error.mpr (.inl ⟨hfirst, rfl⟩), rfl⟩
  | some entry =>
      rw [hfirst] at h
      exact ⟨_, readDocument_eq_error.mpr (.inr (.inl ⟨entry.1, entry.2, hfirst, h, rfl⟩)), rfl⟩

/-- **A document whose options are no mapping is refused.** -/
theorem Unmapped.readDocument (h : Unmapped doc key v) :
    ∃ f, (readDocument platform doc).result = .error f ∧ f.label = "ConfigurationError" := by
  cases hitems : entityItems? doc with
  | none => exact readDocument_of_no_items hitems
  | some items => exact ⟨_, readDocument_eq_optionsNoMapping.mpr ⟨items, v, hitems, h, rfl⟩, rfl⟩

end Schema

namespace Generation

open Schema (Entity Location Options Unmapped entityItems? firstOf optionKeys)

/-! ## Overriding -/

/-- The mapping that the options of a document are taken for where others are put over them: what
    counts as nothing is taken for one without entries. -/
def takenFor (v : Value) : Except MappingFault Entries :=
  if v.truthy then Entries.ofValue v else .ok []

variable {doc own : Entries} {key : String} {v : Value} {given : List (String × Value)}

theorem takenFor_map (es : Entries) : takenFor (.map es) = .ok es := by
  cases es <;> rfl

/-- Options are put over what those of the document are taken for. -/
theorem overrideOptions_eq (hgiven : given ≠ []) (h : firstOf doc optionKeys = some (key, v)) :
    overrideOptions doc given = (takenFor v).map fun own =>
      doc.put (.text key) (.map (Options.override own given)) := by
  cases given with
  | nil => exact absurd rfl hgiven
  | cons g given =>
      unfold overrideOptions takenFor
      rw [h]
      simp only [List.isEmpty_cons, Bool.false_eq_true, if_false, Option.getD_some]
      cases v.truthy with
      | false => rfl
      | true =>
          simp only [if_true]
          cases Entries.ofValue v <;> rfl

/-- What is taken for a mapping cannot be told from the mapping. -/
theorem overrideOptions_taken (hgiven : given ≠ []) (h : firstOf doc optionKeys = some (key, v))
    (hown : takenFor v = .ok own) :
    overrideOptions (doc.put (.text key) (.map own)) given = overrideOptions doc given := by
  rw [overrideOptions_eq hgiven h, overrideOptions_eq hgiven (Schema.firstOf_put_self h _), hown,
    takenFor_map]
  simp only [Except.map, Entries.put_put]

/-! ## Runs -/

variable {w : Workspace} {formatter : Option Formatter} {l l' : Location}

/-- **A document is refused**: reading it ends with a fault of the configuration, or the place that its
    options name for the results has no name. -/
def Refused (w : Workspace) (doc : Entries) : Prop :=
  (∃ f, (Schema.readDocument w.platform doc).result = .error f ∧ f.label = "ConfigurationError") ∨
    ∃ es o, (Schema.readDocument w.platform doc).result = .ok (es, o) ∧
      w.disk.resolve w.here o.resultsPath = .ok []

/-- What nothing expects is no fault of the configuration. -/
theorem label_ne_of_unexpected {f : Fault} (h : f.area = .unexpected) :
    f.label ≠ "ConfigurationError" := by
  intro hlabel
  rw [area_eq, hlabel] at h
  exact absurd h (by decide)

/-- **A run ends with a fault of the configuration exactly if** the document that it reads is
    refused. -/
theorem refused_iff (hdoc : Given w l given doc) :
    (∃ f, (generateFile w formatter l given).result = .error f ∧ f.label = "ConfigurationError") ↔
      Refused w doc := by
  constructor
  · rintro ⟨f, hf, hlabel⟩
    obtain ⟨g, hload, -⟩ | ⟨own, g, hload, hover, -⟩ | ⟨doc', g, hgiven, hread, rfl⟩ |
      ⟨doc', es, o, hgiven, hread, hf⟩ := generateFile_eq_error.mp hf
    · obtain ⟨_, hown, -⟩ := hdoc
      exact nomatch hload.symm.trans hown
    · obtain ⟨_, hown, hover'⟩ := hdoc
      cases hload.symm.trans hown
      exact nomatch hover.symm.trans hover'
    · obtain rfl := hdoc.unique hgiven
      exact .inl ⟨g, hread, hlabel⟩
    · obtain rfl := hdoc.unique hgiven
      obtain hplace | ⟨rfl, hroot⟩ | ⟨j, -, hrun⟩ :=
        (generate_eq_error (legal_of_readDocument hread)).mp hf
      · exact absurd hlabel (label_ne_of_unexpected hplace.area)
      · exact .inr ⟨es, o, hread, hroot⟩
      · exact absurd hlabel (label_run_ne hrun)
  · rintro (⟨f, hread, hlabel⟩ | ⟨es, o, hread, hroot⟩)
    · exact ⟨_, generateFile_eq_error.mpr (.inr (.inr (.inl ⟨doc, f, hdoc, hread, rfl⟩))), hlabel⟩
    · refine ⟨.noModule o.resultsPath, generateFile_eq_error.mpr
        (.inr (.inr (.inr ⟨doc, es, o, hdoc, hread, ?_⟩))), rfl⟩
      exact (generate_eq_error (legal_of_readDocument hread)).mpr (.inr (.inl ⟨rfl, hroot⟩))

/-- Options that cannot be overridden end the run before anything is generated. -/
theorem generateFile_of_unmade {fault : MappingFault} (hload : (Schema.load w.disk l).2 = .ok doc)
    (hover : overrideOptions doc given = .error fault) :
    (generateFile w formatter l given).result = .error (.overrides fault) ∧
      (generateFile w formatter l given).disk = w.disk := by
  cases hfile : Schema.load w.disk l
  rw [hfile] at hload
  cases hload
  unfold generateFile
  simp only [hfile, hover, and_self]

/-- What is told of the options is told of the document that is read. -/
theorem generateFile_eq_optionsNoMapping {kind : String} :
    (generateFile w formatter l given).result = .error (.document (.optionsNoMapping key kind)) ↔
      ∃ doc items v, Given w l given doc ∧ entityItems? doc = some items ∧ Unmapped doc key v ∧
        v.kind = kind := by
  rw [generateFile_eq_error]
  constructor
  · rintro (⟨_, -, hf⟩ | ⟨_, _, -, -, hf⟩ | ⟨doc, g, hdoc, hread, hf⟩ | ⟨_, es, o, -, hread, hf⟩)
    · exact nomatch hf
    · exact nomatch hf
    · cases hf
      obtain ⟨items, v, h⟩ := Schema.readDocument_eq_optionsNoMapping.mp hread
      exact ⟨doc, items, v, hdoc, h⟩
    · obtain hplace | ⟨hf, -⟩ | ⟨j, -, hrun⟩ :=
        (generate_eq_error (legal_of_readDocument hread)).mp hf
      · exact nomatch hplace
      · exact nomatch hf
      · obtain ⟨_, hf⟩ := exists_stop_of_run hrun
        exact nomatch hf
  · rintro ⟨doc, items, v, hdoc, h⟩
    exact .inr (.inr (.inl ⟨doc, _, hdoc,
      Schema.readDocument_eq_optionsNoMapping.mpr ⟨items, v, h⟩, rfl⟩))

/-- A report without what it tells of the schema file. -/
def Report.unloaded (r : Report) : Report := { r with steps := r.steps.tail }

/-- Where the same document is read, the same is generated, and all that is told is the same but for
    the schema file. -/
theorem generateFile_congr (h : Given w l given doc) (h' : Given w l' given doc) :
    (generateFile w formatter l given).disk = (generateFile w formatter l' given).disk ∧
      (generateFile w formatter l given).result.map Report.unloaded =
        (generateFile w formatter l' given).result.map Report.unloaded := by
  obtain ⟨own, hload, hover⟩ := h
  obtain ⟨own', hload', hover'⟩ := h'
  cases hfile : Schema.load w.disk l
  cases hfile' : Schema.load w.disk l'
  rw [hfile] at hload
  rw [hfile'] at hload'
  cases hload
  cases hload'
  unfold generateFile
  simp only [hfile, hfile', hover, hover']
  cases (Schema.readDocument w.platform doc).result with
  | error f => exact ⟨rfl, rfl⟩
  | ok pair =>
      obtain ⟨es, o⟩ := pair
      refine ⟨rfl, ?_⟩
      simp only
      cases (generate w formatter es o.settings).result <;> rfl

/-! ## The theorem -/

/-- **How a run takes options that are no mapping**, where options are put over those of the
    document. -/
structure Overlooked (w : Workspace) (formatter : Option Formatter) (l : Location)
    (given : List (String × Value)) (doc : Entries) (key : String) (v : Value) : Prop where
  /-- Where none are put over them the run ends with a fault of the configuration. -/
  plain : (∃ f, (generateFile w formatter l []).result = .error f ∧ f.label = "ConfigurationError") ∧
    (generateFile w formatter l []).disk = w.disk
  /-- It tells what they are, unless the entities are no list already. -/
  told : ∀ items, entityItems? doc = some items → (generateFile w formatter l []).result =
    .error (.document (.optionsNoMapping key v.kind))
  /-- Where some are, no run tells that the document's are no mapping. -/
  untold : ∀ key kind, (generateFile w formatter l given).result ≠
    .error (.document (.optionsNoMapping key kind))
  /-- What makes no mapping ends the run, with no fault of the configuration. -/
  unmade : ∀ fault, takenFor v = .error fault →
    (generateFile w formatter l given).result = .error (.overrides fault) ∧
      (Fault.overrides fault).area = .unexpected ∧ (generateFile w formatter l given).disk = w.disk
  /-- What is taken for a mapping is overridden: the document that is read has its entities, and a
      mapping of options. -/
  made : ∀ own, takenFor v = .ok own →
    Given w l given (doc.put (.text key) (.map (Options.override own given))) ∧
      entityItems? (doc.put (.text key) (.map (Options.override own given))) = entityItems? doc ∧
      Schema.optionsOf (doc.put (.text key) (.map (Options.override own given))) =
        ([], .ok (.map (Options.override own given)))
  /-- It is as good as the mapping: with that in its place the same is generated, and the same
      told. -/
  taken : ∀ own, takenFor v = .ok own →
    ∀ l', (Schema.load w.disk l').2 = .ok (doc.put (.text key) (.map own)) →
      (generateFile w formatter l given).disk = (generateFile w formatter l' given).disk ∧
        (generateFile w formatter l given).result.map Report.unloaded =
          (generateFile w formatter l' given).result.map Report.unloaded
  /-- So a fault of the configuration is met only in the options that come out, or elsewhere in the
      document. -/
  refused : (∃ f, (generateFile w formatter l given).result = .error f ∧
      f.label = "ConfigurationError") ↔
    ∃ own, takenFor v = .ok own ∧
      Refused w (doc.put (.text key) (.map (Options.override own given)))
  /-- Then nothing is generated. -/
  untouched : ∀ f, (generateFile w formatter l given).result = .error f →
    f.label = "ConfigurationError" → (generateFile w formatter l given).disk = w.disk

/-- **Options that are no mapping are checked only where none are put over them.** -/
theorem generateFile_unmapped (hload : (Schema.load w.disk l).2 = .ok doc)
    (h : Unmapped doc key v) (hgiven : given ≠ []) :
    Overlooked w formatter l given doc key v := by
  have hover := overrideOptions_eq hgiven h.first
  have hplain : Given w l [] doc := ⟨doc, hload, rfl⟩
  have hmade : ∀ own, takenFor v = .ok own →
      Given w l given (doc.put (.text key) (.map (Options.override own given))) := by
    intro own hown
    refine ⟨doc, hload, ?_⟩
    rw [hover, hown]
    rfl
  have hunmade : ∀ fault, takenFor v = .error fault → overrideOptions doc given = .error fault := by
    intro fault hfault
    rw [hover, hfault]
    rfl
  constructor
  case plain =>
    obtain ⟨f, hf, hlabel⟩ : ∃ f, (generateFile w formatter l []).result = .error f ∧
        f.label = "ConfigurationError" := (refused_iff hplain).mpr (.inl h.readDocument)
    exact ⟨⟨f, hf, hlabel⟩, (guarded_generateFile w formatter l []).configuration f hf hlabel⟩
  case told =>
    intro items hitems
    exact generateFile_eq_optionsNoMapping.mpr ⟨doc, items, v, hplain, hitems, h, rfl⟩
  case untold =>
    intro key' kind htold
    obtain ⟨doc', -, v', ⟨own', hown', hover'⟩, -, hunmapped, -⟩ :=
      generateFile_eq_optionsNoMapping.mp htold
    cases hload.symm.trans hown'
    obtain ⟨own, -, rfl⟩ := Results.map_eq_ok.mp (hover.symm.trans hover')
    -- a mapping stands in their place by then
    have hoptions := Schema.optionsOf_put h.first (Options.override own given)
    have herror := Schema.optionsOf_eq_error.mpr ⟨key', v', hunmapped, rfl⟩
    rw [hoptions] at herror
    exact nomatch herror
  case unmade =>
    intro fault hfault
    obtain ⟨hresult, hdisk⟩ := generateFile_of_unmade hload (hunmade fault hfault)
    exact ⟨hresult, rfl, hdisk⟩
  case made =>
    intro own hown
    exact ⟨hmade own hown, Schema.entityItems?_put h.first _, Schema.optionsOf_put h.first _⟩
  case taken =>
    intro own hown l' hload'
    refine generateFile_congr (hmade own hown) ⟨_, hload', ?_⟩
    rw [overrideOptions_taken hgiven h.first hown, hover, hown]
    rfl
  case refused =>
    constructor
    · rintro ⟨f, hf, hlabel⟩
      cases hown : takenFor v with
      | error fault =>
          obtain ⟨hresult, -⟩ := generateFile_of_unmade hload (hunmade fault hown)
          cases hf.symm.trans hresult
          exact absurd hlabel (label_ne_of_unexpected rfl)
      | ok own => exact ⟨own, rfl, (refused_iff (hmade own hown)).mp ⟨f, hf, hlabel⟩⟩
    · rintro ⟨own, hown, hrefused⟩
      exact (refused_iff (hmade own hown)).mpr hrefused
  case untouched => exact (guarded_generateFile w formatter l given).configuration

/-- A disk with the schema file `{"tables":[],"config":[]}`. -/
def listedOptions : Workspace :=
  .ofDisk ⟨[(["s.json"], .file [0x7b, 0x22, 0x74, 0x61, 0x62, 0x6c, 0x65, 0x73, 0x22, 0x3a, 0x5b, 0x5d,
    0x2c, 0x22, 0x63, 0x6f, 0x6e, 0x66, 0x69, 0x67, 0x22, 0x3a, 0x5b, 0x5d, 0x7d])]⟩

/-- This file. -/
def listedFile : Location := ⟨["s.json"], "s.json"⟩

/-- Its document. -/
def listedDocument : Entries := [(.text "tables", .list []), (.text "config", .list [])]

/-- Options that are put over those of the file. -/
def noFormatter : List (String × Value) := [("formatter", .text "none")]

/-- What an entry of that document looks like, and no other entry. -/
theorem eq_listedEntry {x : Value × Value} {s : String}
    (h : (x.1.text?, x.2.plain, x.2.listItems?.map List.length) = (some s, true, some 0)) :
    x = (.text s, .list []) := by
  obtain ⟨k, v⟩ := x
  simp only [Prod.mk.injEq] at h
  obtain ⟨hkey, hplain, hlength⟩ := h
  obtain ⟨items, hitems, hnil⟩ := Option.map_eq_some_iff.mp hlength
  have hlist : v = .list [] := by
    rw [Json.eq_list_of_plain hplain hitems, List.eq_nil_of_length_eq_zero hnil]
  have htext : k = .text s := by
    cases k <;> cases hkey
    rfl
  rw [hlist, htext]

theorem load_listedFile : (Schema.load listedOptions.disk listedFile).2 = .ok listedDocument := by
  have hread : ((Schema.load listedOptions.disk listedFile).2.toOption.map fun doc =>
      doc.map fun x => (x.1.text?, x.2.plain, x.2.listItems?.map List.length)) =
        some [(some "tables", true, some 0), (some "config", true, some 0)] := by
    decide +kernel
  obtain ⟨doc, hdoc, hentries⟩ := Option.map_eq_some_iff.mp hread
  obtain ⟨x, _, rfl, hx, hrest⟩ := List.map_eq_cons_iff.mp hentries
  obtain ⟨y, _, rfl, hy, hnone⟩ := List.map_eq_cons_iff.mp hrest
  rw [Results.eq_ok_of_toOption hdoc, eq_listedEntry hx, eq_listedEntry hy,
    List.map_eq_nil_iff.mp hnone]
  rfl

theorem unmapped_listedDocument : Unmapped listedDocument "config" (.list []) :=
  ⟨rfl, nofun, rfl⟩

/-- The theorem where an empty list stands for the options. -/
theorem overlooked_listedFile :
    ((Schema.load listedOptions.disk listedFile).2 = .ok listedDocument ∧
      Unmapped listedDocument "config" (.list []) ∧ noFormatter ≠ []) ∧
    Overlooked listedOptions none listedFile noFormatter listedDocument "config" (.list []) :=
  ⟨⟨load_listedFile, unmapped_listedDocument, nofun⟩,
    generateFile_unmapped load_listedFile unmapped_listedDocument nofun⟩

/-- The empty list is refused where nothing is put over it; else it is taken for no options, and a
    module is generated. -/
theorem listedFile_generated :
    ((Schema.load listedOptions.disk listedFile).2 = .ok listedDocument ∧
      Unmapped listedDocument "config" (.list []) ∧ noFormatter ≠ []) ∧
    (generateFile listedOptions none listedFile []).result =
      .error (.document (.optionsNoMapping "config" "list")) ∧
    (∃ r, (generateFile listedOptions none listedFile noFormatter).result = .ok r) ∧
    ∃ found, (generateFile listedOptions none listedFile noFormatter).disk.status
      ["output", "output.module.ts"] = .ok found := by
  have hmade : ((generateFile listedOptions none listedFile noFormatter).result.toOption.isSome &&
      ((generateFile listedOptions none listedFile noFormatter).disk.status
        ["output", "output.module.ts"]).toOption.isSome) = true := by
    decide +kernel
  obtain ⟨hresult, hfile⟩ := Bool.and_eq_true_iff.mp hmade
  refine ⟨⟨load_listedFile, unmapped_listedDocument, nofun⟩, ?_, Results.exists_eq_ok hresult,
    Results.exists_eq_ok hfile⟩
  exact generateFile_eq_optionsNoMapping.mpr ⟨listedDocument, [], .list [],
    ⟨listedDocument, load_listedFile, rfl⟩, rfl, unmapped_listedDocument, rfl⟩

end Generation

end Scaffold
