import Scaffold.Proofs.Disk.Frame

/-!
# `Scaffold.Proofs.Disk.Convergence` — disks that differ where files will be

A disk grows into another one, and a third disk differs from it only where that one has files in the
end. A path that leads to a directory in the end never leads through such a place, so that it is looked
up on both disks with the same outcome, be it a failure (`locate_converging`). Making such directories
does the same on both, and leaves disks that differ at these places only (`ensureAll_converging`).

## Contents
- **Converging.** `Converging`, `Converging.frameKept`, `Converging.sameFrame`.
- **Looking up.** `Leads`, `walk_converging`, `locate_converging`, `status_converging`.
- **Directories.** `Concur`, `makeOne_converging`, `ensureAll_converging`.
-/

namespace Scaffold.Disk

/-! ## Converging -/

/-- The second disk is the first one but for some places, where it holds what a disk `o` does. The first
    one grows into `e`, which has files at these places. -/
structure Converging (places : Path → Prop) (o d d' e : Disk) : Prop where
  grown : Grown d e
  file : ∀ p, places p → ∃ bytes, e.find? p = some (.file bytes)
  same : ∀ p, ¬ places p → d'.find? p = d.find? p
  held : ∀ p, places p → d'.find? p = o.find? p

variable {places : Path → Prop} {o d d' e : Disk}

/-- Where there will be no file, both disks hold the same. -/
theorem Converging.solid (h : Converging places o d d' e) {p : Path}
    (hp : ∀ bytes, e.find? p ≠ some (.file bytes)) : d'.find? p = d.find? p := by
  refine h.same p fun hplace => ?_
  obtain ⟨bytes, hfile⟩ := h.file p hplace
  exact hp bytes hfile

/-- Directories and links stand on both disks, unless there are links at the places. -/
theorem Converging.frameKept (h : Converging places o d d' e)
    (hlinks : ∀ p t, places p → o.find? p ≠ some (.link t)) : FrameKept d d' := by
  constructor
  · intro p hp
    rw [h.solid fun bytes hbytes => nomatch hbytes.symm.trans (h.grown.directory hp)]
    exact hp
  · intro p t
    by_cases hplace : places p
    · constructor
      · intro hp
        exact absurd (h.held p hplace ▸ hp) (hlinks p t hplace)
      · intro hp
        obtain ⟨bytes, hfile⟩ := h.file p hplace
        exact nomatch hfile.symm.trans ((h.grown p).stays.2.1 t hp)
    · rw [h.same p hplace]

/-- The disks have the same frame, unless there are links or directories at the places. -/
theorem Converging.sameFrame (h : Converging places o d d' e)
    (hlinks : ∀ p t, places p → o.find? p ≠ some (.link t))
    (hdirs : ∀ p, places p → o.find? p ≠ some .directory) : SameFrame d d' := by
  have hkept := h.frameKept hlinks
  refine ⟨fun p => ⟨fun hp => ?_, hkept.directory p⟩, hkept.link⟩
  by_cases hplace : places p
  · exact absurd (h.held p hplace ▸ hp) (hdirs p hplace)
  · exact h.same p hplace ▸ hp

/-! ## Looking up -/

/-- Walks arrive at one place. -/
theorem Arrives.unique {follow : Bool} {links : Nat} {here q q' : Path} {rest : List String}
    (h : Arrives d follow links here rest q) (h' : Arrives d follow links here rest q') : q' = q := by
  have hweight : ∀ p t, d.find? p = some (.link t) → (partsOf t).length ≤ linkWeight d :=
    fun p t => length_le_linkWeight
  have hwalk := walk_of_arrives hweight h (Nat.lt_succ_self _)
  have hwalk' := walk_of_arrives hweight h' (Nat.lt_succ_self _)
  exact Except.ok.inj (hwalk'.symm.trans hwalk)

/-- A path leads to a directory, however long it is. -/
def Leads (e : Disk) (p : Path) : Prop :=
  ∃ q, Arrives e true linkLimit [] p q ∧ e.find? q = some .directory

theorem leads_of_status {p : Path} (h : e.status p = .ok .directory) : e.Leads p := by
  obtain ⟨q, hq, hfind⟩ := status_eq_ok.mp h
  exact ⟨q, (locate_eq_ok.mp hq).2, hfind⟩

/-- Where a walk arrives at a directory, all but its last step do. -/
theorem Arrives.init {links : Nat} {here q : Path} {init rest : List String} {name : String}
    (h : Arrives e true links here rest q) (hrest : rest = init ++ [name])
    (hq : e.find? q = some .directory) :
    ∃ r, Arrives e true links here init r ∧ e.find? r = some .directory := by
  induction h generalizing init with
  | here => exact absurd hrest (by simp)
  | @up links here q rest hdir h ih =>
      cases init with
      | nil => exact ⟨here, .here, hdir⟩
      | cons x init =>
          obtain ⟨rfl, htail⟩ := List.cons.inj hrest
          obtain ⟨r, hr, hfind⟩ := ih htail hq
          exact ⟨r, .up hdir hr, hfind⟩
  | absent _ _ hfind => exact nomatch hfind.symm.trans hq
  | @onward links here q name' rest x hdir hname hfind hlink h ih =>
      cases init with
      | nil => exact ⟨here, .here, hdir⟩
      | cons y init =>
          obtain ⟨rfl, htail⟩ := List.cons.inj hrest
          obtain ⟨r, hr, hfind'⟩ := ih htail hq
          exact ⟨r, .onward hdir hname hfind hlink hr, hfind'⟩
  | stay _ _ _ hfollow => exact nomatch hfollow
  | @link links here q name' t rest hdir hname hfind hgo h ih =>
      cases init with
      | nil => exact ⟨here, .here, hdir⟩
      | cons y init =>
          obtain ⟨rfl, rfl⟩ := List.cons.inj hrest
          obtain ⟨r, hr, hfind'⟩ := ih (List.append_assoc _ _ _).symm hq
          exact ⟨r, .link hdir hname hfind (fun hstay => nomatch hstay.2) hr, hfind'⟩

theorem Leads.parent {p : Path} (h : e.Leads p) : e.Leads p.parent := by
  obtain ⟨q, hq, hfind⟩ := h
  rcases List.eq_nil_or_concat p with rfl | ⟨init, name, rfl⟩
  · exact ⟨q, hq, hfind⟩
  · rw [List.concat_eq_append] at hq ⊢
    unfold Path.parent
    rw [List.dropLast_concat]
    exact hq.init rfl hfind

/-- Where a path leads that leads to a directory once the disk has grown, no file will be. -/
theorem Leads.not_file {p q : Path} (h : e.Leads p) (hg : Grown d e) {follow : Bool}
    (hq : d.locate follow p = .ok q) (bytes : List UInt8) : e.find? q ≠ some (.file bytes) := by
  intro hfile
  obtain ⟨r, hr, hdir⟩ := h
  have harrives := (locate_eq_ok.mp hq).2.of_grown hg
  have hfollow : Arrives e true linkLimit [] p q := by
    cases follow with
    | true => exact harrives
    | false => exact harrives.follow fun t hl => nomatch hfile.symm.trans hl
  cases hr.unique hfollow
  exact nomatch hfile.symm.trans hdir

/-- **A walk that will arrive at a directory fares the same on both disks**, as long as the fuel covers
    the parts that are left and those that links may add. -/
theorem walk_converging (h : Converging places o d d' e) {weight weight' : Nat}
    (hweight : ∀ p t, d.find? p = some (.link t) → (partsOf t).length ≤ weight)
    (hweight' : ∀ p t, d'.find? p = some (.link t) → (partsOf t).length ≤ weight')
    {links : Nat} {here q : Path} {rest : List String} (ha : Arrives e true links here rest q)
    (hq : e.find? q = some .directory) (follow : Bool) {fuel fuel' : Nat}
    (hfuel : rest.length + links * (weight + 1) < fuel)
    (hfuel' : rest.length + links * (weight' + 1) < fuel') :
    d'.walk follow fuel' links here rest = d.walk follow fuel links here rest := by
  have hdirectory : ∀ p, e.find? p = some .directory → d'.find? p = d.find? p :=
    fun p hp => h.solid fun bytes hbytes => by cases hbytes.symm.trans hp
  induction ha generalizing fuel fuel' with
  | here =>
      obtain ⟨n, rfl⟩ : ∃ n, fuel = n + 1 := ⟨fuel - 1, by omega⟩
      obtain ⟨m, rfl⟩ : ∃ m, fuel' = m + 1 := ⟨fuel' - 1, by omega⟩
      rw [walk, walk]
  | up hdir _ ih =>
      obtain ⟨n, rfl⟩ : ∃ n, fuel = n + 1 := ⟨fuel - 1, by omega⟩
      obtain ⟨m, rfl⟩ : ∃ m, fuel' = m + 1 := ⟨fuel' - 1, by omega⟩
      rw [List.length_cons] at hfuel hfuel'
      have hrest := @ih hq n m (by omega) (by omega)
      rw [walk, walk, hdirectory _ hdir, if_pos rfl, if_pos rfl, hrest]
  | absent _ _ hfind => cases hfind.symm.trans hq
  | @onward links here q name rest x hdir hname hfind hlink hrest ih =>
      obtain ⟨n, rfl⟩ : ∃ n, fuel = n + 1 := ⟨fuel - 1, by omega⟩
      obtain ⟨m, rfl⟩ : ∃ m, fuel' = m + 1 := ⟨fuel' - 1, by omega⟩
      rw [List.length_cons] at hfuel hfuel'
      have hdown := @ih hq n m (by omega) (by omega)
      have hx : x = .directory := by
        cases x with
        | directory => rfl
        | file bytes =>
            obtain ⟨-, rfl⟩ := hrest.of_file hfind
            cases hfind.symm.trans hq
        | link t => exact absurd rfl (hlink t)
      subst hx
      rw [walk, walk, hdirectory _ hdir, if_neg hname.down, if_neg hname.down]
      simp only [hdirectory _ hfind, hdown]
      -- nothing but a directory may be there yet, and a link least of all
      cases hthere : d.find? (here ++ [name]) with
      | none => rfl
      | some y =>
          cases y with
          | directory => rfl
          | file bytes => rfl
          | link t => cases hfind.symm.trans ((h.grown _).stays.2.1 t hthere)
  | stay _ _ _ hfollow => cases hfollow
  | @link links here q name t rest hdir hname hfind hgo _ ih =>
      obtain ⟨n, rfl⟩ : ∃ n, fuel = n + 1 := ⟨fuel - 1, by omega⟩
      obtain ⟨m, rfl⟩ : ∃ m, fuel' = m + 1 := ⟨fuel' - 1, by omega⟩
      rw [List.length_cons] at hfuel hfuel'
      have hleft := h.grown.link hfind
      have hright : d'.find? (here ++ [name]) = some (.link t) := by
        rw [h.solid fun bytes hbytes => by cases hbytes.symm.trans hfind]
        exact hleft
      -- one link less may be followed, and its target is no longer than the weight
      have hparts := hweight _ t hleft
      have hparts' := hweight' _ t hright
      have hmul : (links + 1) * (weight + 1) = links * (weight + 1) + (weight + 1) :=
        Nat.succ_mul _ _
      have hmul' : (links + 1) * (weight' + 1) = links * (weight' + 1) + (weight' + 1) :=
        Nat.succ_mul _ _
      have hdown := @ih hq n m (by rw [List.length_append]; omega)
        (by rw [List.length_append]; omega)
      rw [walk, walk, hdirectory _ hdir, if_neg hname.down, if_neg hname.down]
      simp only [hleft, hright, hdown]

/-- **A path that will lead to a directory is looked up with the same outcome on both disks.** -/
theorem locate_converging (h : Converging places o d d' e) {p : Path} (hp : e.Leads p) (follow : Bool) :
    d'.locate follow p = d.locate follow p := by
  obtain ⟨q, hq, hdir⟩ := hp
  unfold locate
  split
  · rfl
  · refine walk_converging h (fun p t => length_le_linkWeight) (fun p t => length_le_linkWeight) hq
      hdir follow ?_ ?_
    · rw [Nat.succ_mul]
      omega
    · rw [Nat.succ_mul]
      omega

theorem status_converging (h : Converging places o d d' e) {p : Path} (hp : e.Leads p) :
    d'.status p = d.status p := by
  unfold status
  rw [locate_converging h hp]
  cases hq : d.locate true p with
  | error err => rfl
  | ok q =>
      have hfind : d'.find? q = d.find? q := h.solid (hp.not_file h.grown hq)
      simp only [bind, Except.bind, hfind]

theorem isDirectory_converging (h : Converging places o d d' e) {p : Path} (hp : e.Leads p) :
    d'.isDirectory p = d.isDirectory p := by
  unfold isDirectory status?
  rw [status_converging h hp]

/-! ## Directories -/

/-- Two changes have the same outcome, and leave disks that converge. -/
structure Concur {α : Type} (places : Path → Prop) (o e : Disk) (x x' : Disk × α) : Prop where
  disks : Converging places o x.1 x'.1 e
  outcome : x'.2 = x.2

/-- A directory is made on both disks or on none, at the same place. -/
theorem makeOne_converging (h : Converging places o d d' e) {p : Path} (hp : e.Leads p) :
    (∃ err, d.makeOne p = .error err ∧ d'.makeOne p = .error err) ∨
      ∃ d₁ d₁', d.makeOne p = .ok d₁ ∧ d'.makeOne p = .ok d₁' ∧ Converging places o d₁ d₁' e := by
  have hlocate := locate_converging h hp false
  unfold makeOne
  cases hq : d.locate false p with
  | error err =>
      rw [hq] at hlocate
      exact .inl ⟨err, by rw [hlocate]; exact ⟨rfl, rfl⟩⟩
  | ok q =>
      rw [hq] at hlocate
      have hnot := hp.not_file h.grown hq
      have hfind : d'.find? q = d.find? q := h.solid hnot
      rw [hlocate]
      simp only [bind, Except.bind, hfind]
      cases hthere : d.find? q with
      | some x => exact .inl ⟨.exists, rfl, rfl⟩
      | none =>
          refine .inr ⟨_, _, rfl, rfl, ?_⟩
          have hne : q ≠ [] := ne_nil_of_find? (by rw [hthere]; exact nofun)
          -- the walk does not end at a link, so that it ends where the directory will be
          have hdir : e.find? q = some .directory := by
            obtain ⟨r, hr, hdir⟩ := hp
            have harrives := (locate_eq_ok.mp hq).2.of_grown h.grown
            have hfollow := harrives.follow fun t hl => nomatch hthere.symm.trans (h.grown.link hl)
            cases hr.unique hfollow
            exact hdir
          refine ⟨fun p => ?_, h.file, fun p hplace => ?_, fun p hplace => ?_⟩
          · rw [find?_put hne]
            split
            · rename_i hpq
              rw [hpq, hdir]
              exact .same _
            · exact h.grown p
          · rw [find?_put hne, find?_put hne, h.same p hplace]
          · -- there will be a file, not the directory
            obtain ⟨bytes, hfile⟩ := h.file p hplace
            have hpq : p ≠ q := by
              rintro rfl
              exact nomatch hfile.symm.trans hdir
            rw [find?_put hne, if_neg hpq, h.held p hplace]

theorem alreadyThere_converging (h : Converging places o d d' e) {p : Path} (hp : e.Leads p)
    (err : Errno) :
    d'.alreadyThere p err = d.alreadyThere p err := by
  unfold alreadyThere
  rw [isDirectory_converging h hp]

theorem makeDirectory_converging (h : Converging places o d d' e) {p : Path} (hp : e.Leads p)
    (fuel : Nat) :
    Concur places o e (makeDirectory fuel d p) (makeDirectory fuel d' p) := by
  induction fuel generalizing d d' p with
  | zero =>
      unfold makeDirectory
      rcases makeOne_converging h hp with ⟨err, hmake, hmake'⟩ | ⟨d₁, d₁', hmake, hmake', h₁⟩
      · rw [hmake, hmake']
        exact ⟨h, alreadyThere_converging h hp err⟩
      · rw [hmake, hmake']
        exact ⟨h₁, rfl⟩
  | succ n ih =>
      unfold makeDirectory
      rcases makeOne_converging h hp with ⟨err, hmake, hmake'⟩ | ⟨d₁, d₁', hmake, hmake', h₁⟩
      · rw [hmake, hmake']
        have habove := ih h hp.parent
        cases err with
        | missing =>
            simp only
            cases hmade : makeDirectory n d p.parent with
            | mk b out =>
                cases hmade' : makeDirectory n d' p.parent with
                | mk b' out' =>
                    rw [hmade, hmade'] at habove
                    obtain ⟨hb, rfl⟩ := habove
                    cases out' with
                    | some f => exact ⟨hb, rfl⟩
                    | none =>
                        rcases makeOne_converging hb hp with
                          ⟨err, hagain, hagain'⟩ | ⟨d₁, d₁', hagain, hagain', h₁⟩
                        · simp only [hagain, hagain']
                          exact ⟨hb, alreadyThere_converging hb hp err⟩
                        · simp only [hagain, hagain']
                          exact ⟨h₁, rfl⟩
        | _ => exact ⟨h, alreadyThere_converging h hp _⟩
      · rw [hmake, hmake']
        exact ⟨h₁, rfl⟩

theorem ensureDirectory_converging (h : Converging places o d d' e) {p : Path} (hp : e.Leads p) :
    Concur places o e (d.ensureDirectory p) (d'.ensureDirectory p) := by
  unfold ensureDirectory
  rw [isDirectory_converging h hp]
  cases d.isDirectory p with
  | error f => exact ⟨h, rfl⟩
  | ok there =>
      cases there with
      | true => exact ⟨h, rfl⟩
      | false =>
          have hmake := makeDirectory_converging h hp p.length
          simp only
          cases hmade : makeDirectory p.length d p with
          | mk b out =>
              cases hmade' : makeDirectory p.length d' p with
              | mk b' out' =>
                  rw [hmade, hmade'] at hmake
                  obtain ⟨hb, rfl⟩ := hmake
                  cases out' with
                  | none => exact ⟨hb, rfl⟩
                  | some f => exact ⟨hb, rfl⟩

/-- **Directories are made in the same way on both disks**, and those that are left converge still. -/
theorem ensureAll_converging (h : Converging places o d d' e) {ps : List Path}
    (hps : ∀ p ∈ ps, e.Leads p) :
    Concur places o e (d.ensureAll ps) (d'.ensureAll ps) := by
  induction ps generalizing d d' with
  | nil => exact ⟨h, rfl⟩
  | cons p ps ih =>
      obtain ⟨hp, hps⟩ := List.forall_mem_cons.mp hps
      have hfirst := ensureDirectory_converging h hp
      unfold ensureAll
      cases hmade : d.ensureDirectory p with
      | mk b out =>
          cases hmade' : d'.ensureDirectory p with
          | mk b' out' =>
              rw [hmade, hmade'] at hfirst
              obtain ⟨hb, rfl⟩ := hfirst
              cases out' with
              | error f => exact ⟨hb, rfl⟩
              | ok made =>
                  obtain ⟨hdisks, houtcome⟩ := ih hb hps
                  refine ⟨hdisks, ?_⟩
                  show ((b'.ensureAll ps).2.map _) = ((b.ensureAll ps).2.map _)
                  rw [houtcome]

end Scaffold.Disk
