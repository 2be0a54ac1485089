import ScriptBundle.Proofs.Lists
import ScriptBundle.Proofs.Tree.Places
/-!
# What operations on trees do

A file can be written where `Tree.Writable` says so, and then one place changes
(`run_writeFile`); a file can be removed where there is one (`run_removeFile`). Creating directories
changes nothing else, and when it succeeds there is a directory (`creates_makeDirectories`). Trees
stay well-formed.
-/

namespace ScriptBundle

namespace Tree

variable {t u v : Tree} {loc : List String} {p : Path}

/-- A file can be written to a path: it is a path to a place where no directory stands. -/
def Writable (t : Tree) (p : Path) : Prop :=
  p.hasNul = false ∧ ∃ loc, t.locate p = .ok loc ∧ t.isDirectoryAt loc = false

/-- The tree with a file where a path leads. -/
def write (t : Tree) (p : Path) (content : ByteArray) : Tree :=
  match t.locate p with
  | .ok loc => t.put loc (.file content)
  | .error _ => t

theorem write_of_locate (h : t.locate p = .ok loc) (content : ByteArray) :
    t.write p content = t.put loc (.file content) := by
  rw [write, h]

theorem Writable.sameDirectories (h : t.Writable p) (content : ByteArray) :
    t.SameDirectories (t.write p content) := by
  obtain ⟨-, loc, hloc, hd⟩ := h
  exact write_of_locate hloc content ▸ sameDirectories_put hd content

theorem SameDirectories.writable_iff (h : t.SameDirectories u) : u.Writable p ↔ t.Writable p := by
  simp only [Writable, h.locate_iff, h.isDirectoryAt]

/-- The name of a place where a path leads that has no directory is one. -/
theorem WellFormed.put_of_locate (h : t.WellFormed) (hnul : p.hasNul = false)
    (hp : t.locate p = .ok loc) (hd : t.isDirectoryAt loc = false) (e : Entry) :
    (t.put loc e).WellFormed := by
  obtain ⟨q, rfl, hq, hmem, hdots, hsize⟩ := h.exists_of_locate hp hd
  refine h.put hq ⟨hdots, fun hc => ?_, hsize⟩ hd e
  have hnone := List.any_eq_false.1 hnul p.name hmem
  exact hnone (List.contains_iff_mem.2 hc)

theorem WellFormed.write (h : t.WellFormed) (hp : t.Writable p) (content : ByteArray) :
    (t.write p content).WellFormed := by
  obtain ⟨hnul, loc, hloc, hd⟩ := hp
  exact write_of_locate hloc content ▸ h.put_of_locate hnul hloc hd _

/-! ## Files written one after the other -/

/-- The tree with files where paths lead, written in order. -/
def writeAll (t : Tree) (files : List (Path × ByteArray)) : Tree :=
  files.foldl (fun t x => t.write x.1 x.2) t

/-- Each of these files stands where its path leads, unless a later one is to stand there. -/
def HoldsAll (t : Tree) (files : List (Path × ByteArray)) : Prop :=
  ∀ before x after, files = before ++ x :: after →
    (∀ y ∈ after, t.locate y.1 ≠ t.locate x.1) → t.readFile x.1 = .ok x.2

section Writing

variable {files : List (Path × ByteArray)}

/-- If all are to stand at different places, each of them does. -/
theorem HoldsAll.read (h : t.HoldsAll files)
    (hp : files.Pairwise fun x y => t.locate y.1 ≠ t.locate x.1) {x : Path × ByteArray}
    (hx : x ∈ files) : t.readFile x.1 = .ok x.2 := by
  obtain ⟨before, after, rfl⟩ := List.append_of_mem hx
  exact h before x after rfl (List.pairwise_cons.1 (List.pairwise_append.1 hp).2.1).1

theorem writable_tail {x : Path × ByteArray} (h : ∀ y ∈ x :: files, t.Writable y.1) :
    ∀ y ∈ files, (t.write x.1 x.2).Writable y.1 := fun y hy =>
  ((h x List.mem_cons_self).sameDirectories x.2).writable_iff.2 (h y (List.mem_cons_of_mem _ hy))

theorem sameDirectories_writeAll (h : ∀ x ∈ files, t.Writable x.1) :
    t.SameDirectories (t.writeAll files) := by
  induction files generalizing t with
  | nil => exact .refl t
  | cons x files ih =>
    exact ((h x List.mem_cons_self).sameDirectories x.2).trans (ih (writable_tail h))

theorem WellFormed.writeAll (ht : t.WellFormed) (h : ∀ x ∈ files, t.Writable x.1) :
    (t.writeAll files).WellFormed := by
  induction files generalizing t with
  | nil => exact ht
  | cons x files ih => exact ih (ht.write (h x List.mem_cons_self) x.2) (writable_tail h)

/-- Nothing changes where no path leads. -/
theorem entryAt?_writeAll_of_ne (h : ∀ x ∈ files, t.Writable x.1)
    (hne : ∀ x ∈ files, t.locate x.1 ≠ .ok loc) :
    (t.writeAll files).entryAt? loc = t.entryAt? loc := by
  induction files generalizing t with
  | nil => rfl
  | cons x files ih =>
    have hx := h x List.mem_cons_self
    have hsame := hx.sameDirectories x.2
    have hrest : (t.writeAll (x :: files)).entryAt? loc = (t.write x.1 x.2).entryAt? loc :=
      ih (writable_tail h) fun y hy hloc =>
        hne y (List.mem_cons_of_mem _ hy) (hsame.locate_iff.1 hloc)
    obtain ⟨-, q, hq, hd⟩ := hx
    rw [hrest, write_of_locate hq, entryAt?_put (ne_nil_of_not_directory hd), if_neg]
    rintro rfl
    exact hne x List.mem_cons_self hq

/-- Where several paths lead, the last file stands. -/
theorem entryAt?_writeAll {before after : List (Path × ByteArray)} {x : Path × ByteArray}
    (h : ∀ y ∈ before ++ x :: after, t.Writable y.1) (hx : t.locate x.1 = .ok loc)
    (hlast : ∀ y ∈ after, t.locate y.1 ≠ .ok loc) :
    (t.writeAll (before ++ x :: after)).entryAt? loc = some (.file x.2) := by
  induction before generalizing t with
  | nil =>
    have hsame := (h x List.mem_cons_self).sameDirectories x.2
    have hrest := entryAt?_writeAll_of_ne (writable_tail h) fun y hy hloc =>
      hlast y hy (hsame.locate_iff.1 hloc)
    obtain ⟨-, q, hq, hd⟩ := h x List.mem_cons_self
    obtain rfl : q = loc := Except.ok.inj (hq.symm.trans hx)
    refine hrest.trans ?_
    rw [write_of_locate hq, entryAt?_put (ne_nil_of_not_directory hd), if_pos rfl]
  | cons y before ih =>
    have hsame := (h y List.mem_cons_self).sameDirectories y.2
    exact ih (writable_tail h) (hsame.locate_iff.2 hx) fun z hz hloc =>
      hlast z hz (hsame.locate_iff.1 hloc)

/-- At a place stands the last file that was written there. -/
theorem entryAt?_writeAll_eq (h : ∀ x ∈ files, t.Writable x.1) (loc : List String) :
    (t.writeAll files).entryAt? loc =
      ((files.filter fun x => t.locate x.1 = .ok loc).getLast?.map fun x => .file x.2).or
        (t.entryAt? loc) := by
  by_cases hsome : ∃ x ∈ files, t.locate x.1 = .ok loc
  · obtain ⟨before, x, after, rfl, hx, hafter⟩ := exists_last hsome
    have hnone : after.filter (fun x => t.locate x.1 = .ok loc) = [] :=
      List.filter_eq_nil_iff.2 fun y hy => by simpa using hafter y hy
    rw [entryAt?_writeAll h hx hafter, List.filter_append,
      List.filter_cons_of_pos (by simpa using hx), hnone, List.getLast?_concat]
    rfl
  · have hnone : ∀ x ∈ files, t.locate x.1 ≠ .ok loc := fun x hx hloc => hsome ⟨x, hx, hloc⟩
    rw [entryAt?_writeAll_of_ne h hnone,
      List.filter_eq_nil_iff.2 fun x hx => by simpa using hnone x hx]
    rfl

end Writing

/-! ## More directories -/

/-- A tree has more directories than another, and nothing else is different. -/
structure Grows (t u : Tree) : Prop where
  here : u.here = t.here
  keeps : ∀ loc e, t.entryAt? loc = some e → u.entryAt? loc = some e
  files : ∀ loc b, u.entryAt? loc = some (.file b) → t.entryAt? loc = some (.file b)
  wellFormed : t.WellFormed → u.WellFormed

namespace Grows

theorem refl (t : Tree) : t.Grows t := ⟨rfl, fun _ _ => id, fun _ _ => id, id⟩

theorem trans (h : t.Grows u) (h' : u.Grows v) : t.Grows v where
  here := h'.here.trans h.here
  keeps loc e he := h'.keeps loc e (h.keeps loc e he)
  files loc b hb := h.files loc b (h'.files loc b hb)
  wellFormed ht := h'.wellFormed (h.wellFormed ht)

theorem locate (h : t.Grows u) (hp : t.locate p = .ok loc) : u.locate p = .ok loc :=
  locate_mono h.here
    (fun loc hd => isDirectoryAt_iff.2 (h.keeps loc _ (isDirectoryAt_iff.1 hd))) hp

end Grows

theorem grows_put (hnul : p.hasNul = false) (hp : t.locate p = .ok loc)
    (hnone : t.entryAt? loc = none) : t.Grows (t.put loc .directory) := by
  have hnil : loc ≠ [] := by
    rintro rfl
    cases hnone
  have hd : t.isDirectoryAt loc = false := by rw [isDirectoryAt, hnone]
  refine ⟨here_put, fun q e he => ?_, fun q b hb => ?_, fun ht => ht.put_of_locate hnul hp hd _⟩
  · rw [entryAt?_put hnil, if_neg, he]
    rintro rfl
    rw [hnone] at he
    cases he
  · rw [entryAt?_put hnil] at hb
    split_ifs at hb
    · cases hb
    · exact hb

end Tree

namespace FileOperation

open ScriptBundle.Tree

variable {α β : Type} {t t' : Tree} {loc : List String} {p : Path}

/-! ## Sequences of operations -/

theorem run_bind (x : FileOperation α) (y : α → FileOperation β) (t : Tree) :
    (x >>= y).run t = match x.run t with
      | (.ok a, t₁) => (y a).run t₁
      | (.error e, t₁) => (.error e, t₁) := by
  change (match x.run t with | (r, t₁) => ExceptT.bindCont y r t₁) = _
  cases x.run t with
  | mk r t₁ => cases r <;> rfl

theorem run_bind_eq_ok {x : FileOperation α} {y : α → FileOperation β} {b : β}
    (h : (x >>= y).run t = (.ok b, t')) :
    ∃ a t₁, x.run t = (.ok a, t₁) ∧ (y a).run t₁ = (.ok b, t') := by
  rw [run_bind] at h
  split at h
  next a t₁ ha => exact ⟨a, t₁, ha, h⟩
  next => cases h

theorem run_tryCatch (x : FileOperation α) (handle : FileError → FileOperation α) (t : Tree) :
    (tryCatch x handle).run t = match x.run t with
      | (.ok a, t₁) => (.ok a, t₁)
      | (.error e, t₁) => (handle e).run t₁ := by
  simp only [tryCatch, tryCatchThe, MonadExceptOf.tryCatch, ExceptT.tryCatch, ExceptT.run,
    ExceptT.mk, bind, StateT.bind]
  cases x t with
  | mk r t₁ => cases r <;> rfl

theorem run_get_bind (f : Tree → FileOperation α) (t : Tree) :
    (get >>= f).run t = (f t).run t := rfl

/-! ## Files -/

theorem run_locate (p : Path) (t : Tree) : (locate p).run t =
    (if p.hasNul then .error .embeddedNul
    else match t.locate p with
      | .ok loc => .ok loc
      | .error k => .error (.refused k p), t) := by
  cases hnul : p.hasNul with
  | true =>
    simp only [locate, hnul]
    rfl
  | false =>
    have hrun : (locate p).run t = (match t.locate p with
      | .ok loc => pure loc
      | .error k => refuse k p : FileOperation (List String)).run t := by
      simp only [locate, hnul]
      rfl
    rw [hrun]
    cases t.locate p <;> rfl

theorem run_locate_of_ok (hnul : p.hasNul = false) (hp : t.locate p = .ok loc) :
    (locate p).run t = (.ok loc, t) := by
  rw [run_locate, hnul, hp]
  rfl

theorem locate_of_run (h : (locate p).run t = (.ok loc, t')) :
    p.hasNul = false ∧ t.locate p = .ok loc ∧ t' = t := by
  rw [run_locate] at h
  cases hnul : p.hasNul with
  | true =>
    rw [hnul] at h
    cases h
  | false =>
    rw [hnul] at h
    cases hp : t.locate p with
    | ok q =>
      rw [hp] at h
      cases h
      exact ⟨rfl, rfl, rfl⟩
    | error k =>
      rw [hp] at h
      cases h

/-- An operation at the place where a path leads. If the path leads nowhere then nothing happens. -/
theorem run_locate_bind (f : List String → FileOperation α) (t : Tree) :
    (∃ loc, p.hasNul = false ∧ t.locate p = .ok loc ∧ (locate p >>= f).run t = (f loc).run t) ∨
      (∀ loc, p.hasNul = false → t.locate p ≠ .ok loc) ∧
        ∃ e, (locate p >>= f).run t = (.error e, t) := by
  rw [run_bind]
  cases hr : (locate p).run t with
  | mk r t₁ =>
    cases r with
    | ok loc =>
      obtain ⟨hnul, hloc, rfl⟩ := locate_of_run hr
      exact .inl ⟨loc, hnul, hloc, rfl⟩
    | error e =>
      have ht : ((locate p).run t).2 = t := by rw [run_locate]
      rw [hr] at ht
      obtain rfl : t₁ = t := ht
      refine .inr ⟨fun loc hnul hloc => ?_, e, rfl⟩
      rw [run_locate_of_ok hnul hloc] at hr
      cases hr

theorem run_writeFile (h : t.Writable p) (content : ByteArray) :
    (writeFile p content).run t = (.ok (), t.write p content) := by
  obtain ⟨hnul, loc, hloc, hd⟩ := h
  rw [writeFile, run_bind, run_locate_of_ok hnul hloc, write_of_locate hloc]
  dsimp only
  rw [run_get_bind]
  split
  next he =>
    rw [isDirectoryAt_iff.2 he] at hd
    cases hd
  next => rfl

theorem run_writeFile_of_not (h : ¬ t.Writable p) (content : ByteArray) :
    ∃ e, (writeFile p content).run t = (.error e, t) := by
  rw [writeFile]
  obtain ⟨loc, hnul, hloc, hrun⟩ | ⟨-, h⟩ := run_locate_bind (p := p) _ t
  · have hd : t.entryAt? loc = some .directory := by
      rw [← isDirectoryAt_iff, ← Bool.not_eq_false]
      exact fun hd => h ⟨hnul, loc, hloc, hd⟩
    rw [hrun, run_get_bind, hd]
    exact ⟨_, rfl⟩
  · exact h

/-- A file that can be read can be removed. -/
theorem run_removeFile {b : ByteArray} (hnul : p.hasNul = false) (hp : t.locate p = .ok loc)
    (hf : t.entryAt? loc = some (.file b)) : (removeFile p).run t = (.ok (), t.erase loc) := by
  rw [removeFile, run_bind, run_locate_of_ok hnul hp]
  dsimp only
  rw [run_get_bind, hf]
  rfl

theorem removed_of_run (h : (removeFile p).run t = (.ok (), t')) : p.hasNul = false ∧
    ∃ loc b, t.locate p = .ok loc ∧ t.entryAt? loc = some (.file b) ∧ t' = t.erase loc := by
  rw [removeFile] at h
  obtain ⟨loc, hnul, hloc, hrun⟩ | ⟨-, e, hrun⟩ := run_locate_bind (p := p) _ t
  · rw [hrun, run_get_bind] at h
    split at h
    next => cases h
    next => cases h
    next b hb =>
      cases h
      exact ⟨hnul, loc, b, hloc, hb, rfl⟩
  · rw [hrun] at h
    cases h

/-! ## Directories -/

theorem run_makeDirectory (p : Path) (t : Tree) :
    (∃ loc, p.hasNul = false ∧ t.locate p = .ok loc ∧ t.entryAt? loc = none ∧
      (makeDirectory p).run t = (.ok (), t.put loc .directory)) ∨
    ∃ e, (makeDirectory p).run t = (.error e, t) := by
  rw [makeDirectory]
  obtain ⟨loc, hnul, hloc, hrun⟩ | ⟨-, h⟩ := run_locate_bind (p := p) _ t
  · rw [hrun, run_get_bind]
    split
    next => exact .inr ⟨_, rfl⟩
    next hnone => exact .inl ⟨loc, hnul, hloc, hnone, rfl⟩
  · exact .inr h

theorem run_makeDirectory_of_none (hnul : p.hasNul = false) (hp : t.locate p = .ok loc)
    (hnone : t.entryAt? loc = none) :
    (makeDirectory p).run t = (.ok (), t.put loc .directory) := by
  rw [makeDirectory, run_bind, run_locate_of_ok hnul hp]
  dsimp only
  rw [run_get_bind, hnone]
  rfl

theorem run_makeDirectory_of_error {k : FileErrorKind} (hnul : p.hasNul = false)
    (hp : t.locate p = .error k) : (makeDirectory p).run t = (.error (.refused k p), t) := by
  rw [makeDirectory, run_bind, run_locate, hnul, hp]
  rfl

theorem tree_of_makeDirectory_error {e : FileError}
    (h : (makeDirectory p).run t = (.error e, t')) : t' = t := by
  obtain ⟨loc, -, -, -, hok⟩ | ⟨e', herror⟩ := run_makeDirectory p t
  · rw [hok] at h
    cases h
  · rw [herror] at h
    cases h
    rfl

/-- A directory in which another one is to be created is found to be missing on the way there. -/
theorem notFound_of_makeDirectory {q : Path}
    (h : (makeDirectory p).run t = (.error (.refused .notFound q), t')) :
    p.hasNul = false ∧ t.locate p = .error .notFound := by
  rw [makeDirectory, run_bind, run_locate] at h
  cases hnul : p.hasNul with
  | true =>
    rw [hnul] at h
    cases h
  | false =>
    rw [hnul] at h
    cases hp : t.locate p with
    | error k =>
      rw [hp] at h
      cases h
      exact ⟨rfl, rfl⟩
    | ok loc =>
      rw [hp] at h
      dsimp only at h
      rw [if_neg Bool.false_ne_true] at h
      dsimp only at h
      rw [run_get_bind] at h
      cases he : t.entryAt? loc with
      | none =>
        rw [he] at h
        cases h
      | some e =>
        rw [he] at h
        cases h

theorem grows_makeDirectory (p : Path) (t : Tree) : t.Grows ((makeDirectory p).run t).2 := by
  obtain ⟨loc, hnul, hloc, hnone, hrun⟩ | ⟨e, hrun⟩ := run_makeDirectory p t
  · rw [hrun]
    exact grows_put hnul hloc hnone
  · rw [hrun]
    exact .refl t

theorem isDirectory_eq_ok (h : t.isDirectory p = .ok true) :
    p.hasNul = false ∧ ∃ loc, t.locate p = .ok loc ∧ t.isDirectoryAt loc = true := by
  rw [Tree.isDirectory, test] at h
  cases hnul : p.hasNul with
  | true => simp [hnul] at h
  | false =>
    rw [hnul, if_neg Bool.false_ne_true, stat] at h
    cases hloc : t.locate p with
    | error k => cases k <;> simp [hloc] at h
    | ok loc =>
      refine ⟨rfl, loc, rfl, ?_⟩
      rw [isDirectoryAt]
      cases he : t.entryAt? loc with
      | none => simp [hloc, he] at h
      | some e => cases e <;> simp [hloc, he] at h ⊢

theorem run_acceptDirectory (p : Path) (e : FileError) (t : Tree) :
    (t.isDirectory p = .ok true ∧ (acceptDirectory p e).run t = (.ok (), t)) ∨
      ∃ e', (acceptDirectory p e).run t = (.error e', t) := by
  cases e with
  | embeddedNul => exact .inr ⟨_, rfl⟩
  | doubleStar => exact .inr ⟨_, rfl⟩
  | refused k q =>
    rw [acceptDirectory, run_get_bind]
    split
    next h => exact .inl ⟨h, rfl⟩
    next => exact .inr ⟨_, rfl⟩
    next => exact .inr ⟨_, rfl⟩

/-- What an operation that is to create a directory does: it creates directories, and one of them
is that directory, or it was there. -/
structure Creates (p : Path) (x : FileOperation Unit) : Prop where
  grows : ∀ t : Tree, t.Grows (x.run t).2
  directory : ∀ t t', x.run t = (.ok (), t') →
    p.hasNul = false ∧ ∃ loc, t'.locate p = .ok loc ∧ t'.isDirectoryAt loc = true

theorem creates_makeDirectory (p : Path) : Creates p (makeDirectory p) := by
  refine ⟨grows_makeDirectory p, fun t t' h => ?_⟩
  obtain ⟨loc, hnul, hloc, hnone, hrun⟩ | ⟨e, hrun⟩ := run_makeDirectory p t
  · rw [hrun] at h
    cases h
    refine ⟨hnul, loc, (grows_put hnul hloc hnone).locate hloc, ?_⟩
    rw [isDirectoryAt_iff, entryAt?_put, if_pos rfl]
    rintro rfl
    cases hnone
  · rw [hrun] at h
    cases h

theorem creates_acceptDirectory (p : Path) (e : FileError) : Creates p (acceptDirectory p e) := by
  refine ⟨fun t => ?_, fun t t' h => ?_⟩
  · obtain ⟨-, hrun⟩ | ⟨e', hrun⟩ := run_acceptDirectory p e t <;>
      exact hrun ▸ .refl t
  · obtain ⟨hd, hrun⟩ | ⟨e', hrun⟩ := run_acceptDirectory p e t
    · rw [hrun] at h
      cases h
      exact isDirectory_eq_ok hd
    · rw [hrun] at h
      cases h

theorem creates_refuse (p q : Path) (k : FileErrorKind) : Creates p (refuse k q) :=
  ⟨fun t => .refl t, nofun⟩

theorem Creates.tryCatch {x : FileOperation Unit} {handle : FileError → FileOperation Unit}
    (hx : Creates p x) (hh : ∀ e, Creates p (handle e)) :
    Creates p (MonadExcept.tryCatch x handle) := by
  refine ⟨fun t => ?_, fun t t' h => ?_⟩
  · have hgrows := hx.grows t
    rw [run_tryCatch]
    split
    next h => rwa [h] at hgrows
    next h =>
      rw [h] at hgrows
      exact hgrows.trans ((hh _).grows _)
  · rw [run_tryCatch] at h
    split at h
    next hrun => exact hx.directory t t' (hrun.trans h)
    next => exact (hh _).directory _ _ h

/-- Directories are created one in the other. -/
theorem Creates.bind {x : FileOperation Unit} {y : Unit → FileOperation Unit} {q : Path}
    (hx : Creates q x) (hy : Creates p (y ())) : Creates p (x >>= y) := by
  refine ⟨fun t => ?_, fun t t' h => ?_⟩
  · have hgrows := hx.grows t
    rw [run_bind]
    split
    next h =>
      rw [h] at hgrows
      exact hgrows.trans (hy.grows _)
    next h => rwa [h] at hgrows
  · obtain ⟨_, t₁, -, h⟩ := run_bind_eq_ok h
    exact hy.directory _ _ h

theorem creates_makeDirectoriesRev (s : Nat) (rev : List String) :
    Creates ⟨s, rev.reverse⟩ (makeDirectoriesRev s rev) := by
  induction rev with
  | nil => exact (creates_makeDirectory _).tryCatch fun e => creates_acceptDirectory _ e
  | cons last rev ih =>
    rw [makeDirectoriesRev]
    refine (creates_makeDirectory _).tryCatch fun e => ?_
    split
    · refine ih.bind ((creates_makeDirectory _).tryCatch fun e => ?_)
      split
      · exact creates_refuse _ _ _
      · exact creates_acceptDirectory _ _
    · exact creates_acceptDirectory _ _

theorem creates_makeDirectories (p : Path) : Creates p (makeDirectories p) := by
  have h := creates_makeDirectoriesRev p.slashes p.parts.reverse
  rwa [List.reverse_reverse] at h

theorem grows_of_makeDirectories (h : (makeDirectories p).run t = (.ok (), t')) : t.Grows t' := by
  have hgrows := (creates_makeDirectories p).grows t
  rwa [h] at hgrows

end FileOperation

end ScriptBundle
