import Scaffold.Proofs.Disk.Frame
import Scaffold.Proofs.Disk.Resolving

/-!
# `Scaffold.Proofs.Disk.Order` — files written in another order

Writing files adds files and nothing else (`FilesAdded`), so it does not change where paths lead
(`locate_filesAdded`), nor which files can be written (`writable_filesAdded`). Hence all of some files
can be written if each one can be (`exists_writeAll_iff`), in whatever order; and if they go to
different places, what is found at a place does not depend on what was written elsewhere
(`find?_eq_of_writeAll`).

## Contents
- **Added files.** `FilesAdded`, `filesAdded_writeAll`, `FilesAdded.sameFrame`, `locate_filesAdded`.
- **Writable files.** `Writable`, `exists_write_iff`, `exists_writeAll_iff`.
- **Different places.** `Apart`, `apart_of_linkFree`, `read_of_apart`,
  `find?_eq_of_writeAll`.
- **Directories.** `ensureAll_of_status`.
- **Resolving.** `follow_eq_of_links`, `resolve_of_links`, `resolve_of_grown`.
-/

namespace Scaffold.Disk

/-! ## Added files -/

/-- The second disk holds what the first one holds, and perhaps more files, or other bytes in them. -/
structure FilesAdded (d d' : Disk) : Prop where
  grown : Grown d d'
  directory : ∀ p, d'.find? p = some .directory → d.find? p = some .directory

theorem FilesAdded.refl (d : Disk) : FilesAdded d d := ⟨.refl d, fun _ => id⟩

theorem FilesAdded.trans {a b c : Disk} (h : FilesAdded a b) (g : FilesAdded b c) :
    FilesAdded a c := ⟨h.grown.trans g.grown, fun p hp => h.directory p (g.directory p hp)⟩

theorem filesAdded_write {d d' : Disk} (ht : IsTree d) {p : Path} {text : String}
    (h : d.write p text = .ok d') : FilesAdded d d' := by
  refine ⟨(grown_write ht h).1, fun r hr => ?_⟩
  obtain ⟨q, -, hdir, rfl⟩ := write_eq_ok h
  rw [find?_put (ne_nil_of_find? hdir)] at hr
  split at hr
  · exact nomatch hr
  · exact hr

theorem filesAdded_writeAll {d d' : Disk} (ht : IsTree d) {fs : List (Path × String)}
    (h : d.writeAll fs = .ok d') : FilesAdded d d' := by
  induction fs generalizing d with
  | nil =>
      cases h
      exact .refl _
  | cons x fs ih =>
      obtain ⟨d₁, hw, hrest⟩ := writeAll_cons_eq_ok.mp h
      exact (filesAdded_write ht hw).trans (ih (grown_write ht hw).2 hrest)

/-- Added files leave directories and links as they are. -/
theorem FilesAdded.sameFrame {d d' : Disk} (h : FilesAdded d d') : SameFrame d d' :=
  ⟨fun p => ⟨h.directory p, h.grown.directory⟩, fun p t => ⟨h.grown.link, (h.grown p).stays.2.1 t⟩⟩

/-- **Added files do not change where paths lead.** -/
theorem locate_filesAdded {d d' : Disk} (h : FilesAdded d d') {follow : Bool} {p q : Path} :
    d'.locate follow p = .ok q ↔ d.locate follow p = .ok q :=
  locate_sameFrame h.sameFrame

/-! ## Writable files -/

/-- A file can be written to a path: it leads somewhere, and not to a directory. -/
def Writable (d : Disk) (p : Path) : Prop :=
  (p.any fun s => s.toList.contains '\x00') = false ∧
    ∃ q, d.locate true p = .ok q ∧ d.find? q ≠ some .directory

theorem exists_write_iff {d : Disk} {p : Path} {text : String} :
    (∃ d', d.write p text = .ok d') ↔ d.Writable p := by
  constructor
  · rintro ⟨d', h⟩
    obtain ⟨q, hq, hdir, -⟩ := write_eq_ok h
    refine ⟨?_, q, hq, hdir⟩
    unfold write at h
    split at h
    · exact nomatch h
    · rename_i hnul
      exact Bool.eq_false_iff.mpr hnul
  · rintro ⟨hnul, q, hq, hdir⟩
    unfold write
    rw [hnul, hq]
    simp only [Bool.false_eq_true, if_false]
    exact ⟨_, rfl⟩

/-- Added files do not change which files can be written. -/
theorem writable_filesAdded {d d' : Disk} (h : FilesAdded d d') {p : Path} :
    d'.Writable p ↔ d.Writable p := by
  have hdirectory := h.sameFrame.directory
  unfold Writable
  simp only [locate_filesAdded h, ne_eq, hdirectory]

/-- **All of some files can be written if each one can be.** -/
theorem exists_writeAll_iff {d : Disk} (ht : IsTree d) {fs : List (Path × String)} :
    (∃ d', d.writeAll fs = .ok d') ↔ ∀ x ∈ fs, d.Writable x.1 := by
  induction fs generalizing d with
  | nil => exact ⟨fun _ x hx => absurd hx List.not_mem_nil, fun _ => ⟨d, rfl⟩⟩
  | cons x fs ih =>
      rw [List.forall_mem_cons]
      constructor
      · rintro ⟨d', h⟩
        obtain ⟨d₁, hw, hrest⟩ := writeAll_cons_eq_ok.mp h
        have hadded := filesAdded_write ht hw
        have hall := (ih (grown_write ht hw).2).mp ⟨d', hrest⟩
        exact ⟨exists_write_iff.mp ⟨d₁, hw⟩, fun y hy => (writable_filesAdded hadded).mp (hall y hy)⟩
      · rintro ⟨hx, hall⟩
        obtain ⟨d₁, hw⟩ : ∃ d₁, d.write x.1 x.2 = .ok d₁ := exists_write_iff.mpr hx
        have hadded := filesAdded_write ht hw
        obtain ⟨d', hrest⟩ := (ih (grown_write ht hw).2).mpr fun y hy =>
          (writable_filesAdded hadded).mpr (hall y hy)
        exact ⟨d', writeAll_cons_eq_ok.mpr ⟨d₁, hw, hrest⟩⟩

/-! ## Different places -/

/-- No two of some paths lead to the same place. -/
def Apart (d : Disk) (ps : List Path) : Prop :=
  ps.Pairwise fun p p' => ∀ q, d.locate true p = .ok q → d.locate true p' ≠ .ok q

theorem Apart.perm {d : Disk} {ps ps' : List Path} (h : d.Apart ps) (hp : ps.Perm ps') :
    d.Apart ps' :=
  hp.pairwise h fun hpp' q hp' hp => hpp' q hp hp'

theorem Apart.filesAdded {d d' : Disk} (hd : FilesAdded d d') {ps : List Path} (h : d.Apart ps) :
    d'.Apart ps :=
  List.Pairwise.imp (fun hpp' q hp hp' =>
    hpp' q ((locate_filesAdded hd).mp hp) ((locate_filesAdded hd).mp hp')) h

/-- **Below a root without links, different paths lead to different places.** -/
theorem apart_of_linkFree {d : Disk} {root : Path} (hfree : LinkFree d root) {ps : List Path}
    (hbelow : ∀ p ∈ ps, root <+: p ∧ ∀ s ∈ p, s ≠ "..") (hnodup : ps.Nodup) : d.Apart ps := by
  refine hnodup.imp_of_mem fun {p p'} hp hp' hne q hq hq' => hne ?_
  rw [← locate_linkFree hfree (hbelow p hp).1 (hbelow p hp).2 hq,
    ← locate_linkFree hfree (hbelow p' hp').1 (hbelow p' hp').2 hq']

/-- A place that no path leads to stays as it is. -/
theorem find?_of_unwritten {d d' : Disk} (ht : IsTree d) {fs : List (Path × String)}
    (h : d.writeAll fs = .ok d') {q : Path} (hq : ∀ x ∈ fs, d.locate true x.1 ≠ .ok q) :
    d'.find? q = d.find? q :=
  find?_writeAll ht h fun x hx hx' =>
    hq x hx ((locate_filesAdded (filesAdded_writeAll ht h)).mp hx')

/-- **Files that go to different places are all there** at the end. -/
theorem read_of_apart {d d' : Disk} (ht : IsTree d) {fs : List (Path × String)}
    (h : d.writeAll fs = .ok d') (hapart : d.Apart (fs.map Prod.fst)) {x : Path × String} (hx : x ∈ fs)
    (shown : String) : d'.read x.1 shown = .ok (Text.Utf8.encode x.2) := by
  have hadded := filesAdded_writeAll ht h
  obtain ⟨q, hq⟩ := exists_locate_writeAll ht h x hx
  obtain ⟨before, after, rfl⟩ := List.append_of_mem hx
  unfold Apart at hapart
  rw [List.map_append, List.map_cons, List.pairwise_append, List.pairwise_cons] at hapart
  refine read_writeAll ht h (fun y hy heq => ?_) shown
  rw [hq, locate_filesAdded hadded] at heq
  exact hapart.2.1.1 y.1 (List.mem_map_of_mem hy) q ((locate_filesAdded hadded).mp hq) heq

/-- Each of them is where its path leads. -/
theorem find?_of_apart {d d' : Disk} (ht : IsTree d) {fs : List (Path × String)}
    (h : d.writeAll fs = .ok d') (hapart : d.Apart (fs.map Prod.fst)) {x : Path × String} (hx : x ∈ fs)
    {q : Path} (hq : d.locate true x.1 = .ok q) :
    d'.find? q = some (.file (Text.Utf8.encode x.2)) := by
  have hread := read_of_apart ht h hapart hx ""
  unfold read at hread
  split at hread
  · rename_i bytes hstatus
    obtain ⟨r, hr, hfind⟩ := status_eq_ok.mp hstatus
    cases (locate_of_grown (filesAdded_writeAll ht h).grown hq).symm.trans hr
    cases hread
    exact hfind
  · exact nomatch hread
  · exact nomatch hread

/-- **What is found at a place depends only on the files that go there**, if files go to different
    places. The second disk may be the first one, or hold files of it already. -/
theorem find?_eq_of_writeAll {d d' d₁ d₂ : Disk} (ht : IsTree d) (ht' : IsTree d')
    (hadded : FilesAdded d d') {fs gs : List (Path × String)} (hf : d.writeAll fs = .ok d₁)
    (hg : d'.writeAll gs = .ok d₂) (hfs : d.Apart (fs.map Prod.fst)) (hgs : d.Apart (gs.map Prod.fst))
    {q : Path} (hsame : ∀ x : Path × String, d.locate true x.1 = .ok q → (x ∈ fs ↔ x ∈ gs))
    (hbase : (∀ x ∈ fs, d.locate true x.1 ≠ .ok q) → d'.find? q = d.find? q) :
    d₂.find? q = d₁.find? q := by
  by_cases hq : ∃ x ∈ fs, d.locate true x.1 = .ok q
  · obtain ⟨x, hx, hxq⟩ := hq
    have hxq' := (locate_filesAdded hadded).mpr hxq
    rw [find?_of_apart ht hf hfs hx hxq,
      find?_of_apart ht' hg (hgs.filesAdded hadded) ((hsame x hxq).mp hx) hxq']
  · have hnone : ∀ x ∈ fs, d.locate true x.1 ≠ .ok q := fun x hx hxq => hq ⟨x, hx, hxq⟩
    rw [find?_of_unwritten ht hf hnone, find?_of_unwritten ht' hg, hbase hnone]
    intro x hx hxq'
    have hxq := (locate_filesAdded hadded).mp hxq'
    exact hnone x ((hsame x hxq).mpr hx) hxq

/-! ## Directories -/

/-- Directories that are there need not be made. -/
theorem ensureAll_of_status {d : Disk} {ps : List Path}
    (h : ∀ p ∈ ps, d.status p = .ok .directory) : d.ensureAll ps = (d, .ok []) := by
  induction ps with
  | nil => rfl
  | cons p ps ih =>
      obtain ⟨hp, hps⟩ := List.forall_mem_cons.mp h
      have hthere : d.isDirectory p = .ok true := by
        unfold isDirectory status?
        rw [hp]
        rfl
      unfold ensureAll ensureDirectory
      rw [hthere]
      simp only
      rw [ih hps]
      rfl

/-! ## Resolving -/

/-- **Where links lead does not depend on what else is on a disk**, nor on the fuel, as long as it covers
    the parts that are left and what links may still add. -/
theorem follow_eq_of_links {d d' : Disk}
    (hlinks : ∀ p t, d'.find? p = some (.link t) ↔ d.find? p = some (.link t)) {fuel fuel' : Nat}
    {active : List Path} {here : Path} {rest : List String}
    (hfuel : rest.length + pendingWeight active d.entries < fuel)
    (hfuel' : rest.length + pendingWeight active d'.entries < fuel') :
    d'.follow fuel' active here rest = d.follow fuel active here rest := by
  induction fuel generalizing fuel' active here rest with
  | zero => exact absurd hfuel (Nat.not_lt_zero _)
  | succ n ih =>
      obtain ⟨m, rfl⟩ : ∃ m, fuel' = m + 1 := ⟨fuel' - 1, by omega⟩
      cases rest with
      | nil =>
          unfold follow
          rfl
      | cons name rest =>
          rw [List.length_cons] at hfuel hfuel'
          have hdown : ∀ h, d'.follow m active h rest = d.follow n active h rest :=
            fun h => ih (by omega) (by omega)
          unfold follow
          by_cases hup : name = ".."
          · rw [if_pos hup, if_pos hup]
            exact hdown _
          rw [if_neg hup, if_neg hup]
          simp only
          by_cases hlink : ∃ t, d.find? (here ++ [name]) = some (.link t)
          · obtain ⟨t, hfind⟩ := hlink
            have hfind' := (hlinks _ t).mpr hfind
            rw [hfind, hfind']
            simp only
            by_cases hactive : active.contains (here ++ [name]) = true
            · rw [if_pos hactive, if_pos hactive]
            rw [if_neg hactive, if_neg hactive]
            -- what the link adds was pending before
            have hnew : here ++ [name] ∉ active := by simpa using hactive
            have hlookup : ∀ {e : Disk}, e.find? (here ++ [name]) = some (.link t) →
                e.entries.lookup (here ++ [name]) = some (.link t) := by
              intro e he
              unfold find? at he
              rwa [if_neg (by simp)] at he
            have hweight := pendingWeight_follow hnew (hlookup hfind)
            have hweight' := pendingWeight_follow hnew (hlookup hfind')
            have htarget : d'.follow m ((here ++ [name]) :: active)
                (if isAbsolute t then [] else here) (partsOf t) =
                d.follow n ((here ++ [name]) :: active)
                  (if isAbsolute t then [] else here) (partsOf t) :=
              ih (by omega) (by omega)
            rw [htarget]
            split
            · exact hdown _
            · rfl
          · have hnone : ∀ t, d.find? (here ++ [name]) ≠ some (.link t) := fun t h => hlink ⟨t, h⟩
            split
            · rename_i t h
              exact absurd ((hlinks _ t).mp h) (hnone t)
            · exact hdown _

/-- A text names the same path on a disk with the same links, if its place can be told there. -/
theorem resolve_of_links {d d' : Disk}
    (hlinks : ∀ q t, d'.find? q = some (.link t) ↔ d.find? q = some (.link t)) {here p : Path}
    {text : String} (hp : d.resolve here text = .ok p) (hstatus : d'.status p ≠ .error .tooManyLinks) :
    d'.resolve here text = .ok p := by
  have hfollow : ∀ h, d'.follow ((partsOf text).length + linkWeight d' + 2) [] h (partsOf text) =
      d.follow ((partsOf text).length + linkWeight d + 2) [] h (partsOf text) := by
    intro h
    refine follow_eq_of_links hlinks ?_ ?_ <;> rw [pendingWeight_nil] <;> omega
  unfold resolve at hp ⊢
  split at hp
  · exact nomatch hp
  · rename_i hnul
    rw [if_neg hnul]
    simp only [hfollow] at hp ⊢
    split at hp
    · exact nomatch hp
    · rw [Except.ok.inj hp]
      split
      · rename_i hloop
        exact absurd hloop hstatus
      · rfl

/-- A text names the same path on a disk that has grown, if its place can be told there. -/
theorem resolve_of_grown {d d' : Disk} (hg : Grown d d') {here p : Path} {text : String}
    (hp : d.resolve here text = .ok p) (hstatus : d'.status p ≠ .error .tooManyLinks) :
    d'.resolve here text = .ok p :=
  resolve_of_links (fun q t => ⟨hg.link, (hg q).stays.2.1 t⟩) hp hstatus

end Scaffold.Disk
