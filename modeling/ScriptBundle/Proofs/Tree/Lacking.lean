import ScriptBundle.Proofs.Tree.Unchanged
/-!
# Trees that lack a file

`Tree.Lacks t u loc b` says that the trees `t` and `u` are alike, except that the file at `loc` with
the content `b` may be missing in `u`. What creates directories (`Lacks.makeDirectories`) and writes
files (`Lacks.writeAll`) in `t` does so in `u`, and the trees that it leads to are related in the
same way.
-/

namespace ScriptBundle

open FileOperation

namespace Tree

variable {t u t₁ : Tree} {loc loc' : List String} {b : ByteArray} {p : Path}

/-- The trees `t` and `u` are alike, except that a file at `loc` may be missing in `u`. -/
structure Lacks (t u : Tree) (loc : List String) (b : ByteArray) : Prop where
  wellFormed : t.WellFormed
  wellFormed' : u.WellFormed
  same : t.SameDirectories u
  others : ∀ loc', loc' ≠ loc → u.entryAt? loc' = t.entryAt? loc'
  own : u.entryAt? loc = t.entryAt? loc ∨
    t.entryAt? loc = some (.file b) ∧ u.entryAt? loc = none

theorem WellFormed.lacks_erase (h : t.WellFormed) (hf : t.entryAt? loc = some (.file b)) :
    t.Lacks (t.erase loc) loc b := by
  refine ⟨h, h.erase hf, h.sameDirectories_erase hf, fun loc' => h.entryAt?_erase hf, .inr ⟨hf, ?_⟩⟩
  rw [Tree.entryAt?_erase, if_pos (List.prefix_refl _)]
  rintro rfl
  cases hf

namespace Lacks

theorem entryAt?_eq_or (h : t.Lacks u loc b) (loc' : List String) :
    u.entryAt? loc' = t.entryAt? loc' ∨ loc' = loc ∧ t.entryAt? loc' = some (.file b) ∧
      u.entryAt? loc' = none := by
  by_cases heq : loc' = loc
  · subst heq
    exact h.own.imp_right fun hown => ⟨rfl, hown⟩
  · exact .inl (h.others loc' heq)

theorem kept (h : t.Lacks u loc b) {e : Entry} (he : u.entryAt? loc' = some e) :
    t.entryAt? loc' = some e := by
  obtain heq | ⟨-, -, hnone⟩ := h.entryAt?_eq_or loc'
  · rwa [← heq]
  · rw [hnone] at he
    cases he

theorem entryAt?_none (h : t.Lacks u loc b) (hnone : t.entryAt? loc' = none) :
    u.entryAt? loc' = none := by
  obtain heq | ⟨-, -, hnone'⟩ := h.entryAt?_eq_or loc'
  · rw [heq, hnone]
  · exact hnone'

theorem has_of_has (h : t.Lacks u loc b) (hp : u.Has p) : t.Has p := by
  obtain ⟨loc', e, hloc, he⟩ := hp
  exact ⟨loc', e, h.same.locate_iff.1 hloc, h.kept he⟩

theorem locate_notFound (h : t.Lacks u loc b) (hp : t.locate p = .error .notFound) :
    u.locate p = .error .notFound := by
  obtain ⟨s, ps⟩ := p
  induction ps using List.reverseRecOn with
  | nil => cases hp
  | append_singleton ps n ih =>
    rw [locate_concat_eq] at hp ⊢
    cases hloc : t.locate ⟨s, ps⟩ with
    | error k =>
      rw [hloc] at hp
      cases hp
      rw [ih hloc]
      rfl
    | ok loc' =>
      rw [hloc] at hp
      rw [h.same.locate_iff.2 hloc]
      have hnone : t.entryAt? loc' = none := by
        by_contra hsome
        obtain ⟨e, he⟩ := Option.ne_none_iff_exists'.1 hsome
        simp only [Except.bind, enter, he] at hp
        cases e with
        | file b => cases hp
        | directory =>
          dsimp only at hp
          split_ifs at hp
          cases hp
      simp only [Except.bind, enter, h.entryAt?_none hnone]

/-- Something else at the same place in both. -/
theorem put (h : t.Lacks u loc b) (hnul : p.hasNul = false) (hp : t.locate p = .ok loc')
    (hd : t.isDirectoryAt loc' = false) (e : Entry) :
    (t.put loc' e).Lacks (u.put loc' e) loc b := by
  have hnil := ne_nil_of_not_directory hd
  have hp' := h.same.locate_iff.2 hp
  have hd' : u.isDirectoryAt loc' = false := (h.same.isDirectoryAt loc').trans hd
  refine ⟨h.wellFormed.put_of_locate hnul hp hd e, h.wellFormed'.put_of_locate hnul hp' hd' e,
    ⟨by simp [h.same.here], fun q => ?_⟩, fun q hq => ?_, ?_⟩
  · have hsame := h.same.isDirectoryAt q
    rw [isDirectoryAt, isDirectoryAt] at hsame ⊢
    rw [entryAt?_put hnil, entryAt?_put hnil]
    split_ifs
    · rfl
    · exact hsame
  · rw [entryAt?_put hnil, entryAt?_put hnil, h.others q hq]
  · rw [entryAt?_put hnil, entryAt?_put hnil]
    split_ifs
    · exact .inl rfl
    · exact h.own

/-! ## Creating directories -/

theorem makeDirectory (h : t.Lacks u loc b)
    (hrun : (makeDirectory p).run t = (.ok (), t₁)) :
    ∃ u₁, (FileOperation.makeDirectory p).run u = (.ok (), u₁) ∧ t₁.Lacks u₁ loc b := by
  obtain ⟨loc', hnul, hloc, hnone, hok⟩ | ⟨e, herror⟩ := run_makeDirectory p t
  · rw [hok] at hrun
    cases hrun
    have hd : t.isDirectoryAt loc' = false := by rw [isDirectoryAt, hnone]
    refine ⟨_, ?_, h.put hnul hloc hd .directory⟩
    exact run_makeDirectory_of_none hnul (h.same.locate_iff.2 hloc) (h.entryAt?_none hnone)
  · rw [herror] at hrun
    cases hrun

/-- If a directory is created in one tree, or an error handled, then it is so in the other, if it is
when that error is met. -/
theorem tryMakeDirectory (h : t.Lacks u loc b) {handle : FileError → FileOperation Unit}
    (hrun : (tryCatch (FileOperation.makeDirectory p) handle).run t = (.ok (), t₁))
    (hhandle : ∀ e, (FileOperation.makeDirectory p).run t = (.error e, t) →
      (handle e).run t = (.ok (), t₁) →
        ∃ u₁, (tryCatch (FileOperation.makeDirectory p) handle).run u = (.ok (), u₁) ∧
          t₁.Lacks u₁ loc b) :
    ∃ u₁, (tryCatch (FileOperation.makeDirectory p) handle).run u = (.ok (), u₁) ∧
      t₁.Lacks u₁ loc b := by
  rw [run_tryCatch] at hrun
  split at hrun
  next _ t₂ hmake =>
    cases hrun
    obtain ⟨u₁, hmake', hlacks⟩ := h.makeDirectory hmake
    exact ⟨u₁, by rw [run_tryCatch, hmake'], hlacks⟩
  next e t₂ hmake =>
    obtain rfl := tree_of_makeDirectory_error hmake
    exact hhandle e hmake hrun

/-- An error is accepted in one tree only if there is a directory, and then there is one in both. -/
theorem accept (h : t.Lacks u loc b) {e : FileError}
    (he : (acceptDirectory p e).run t = (.ok (), t₁)) {handle : FileError → FileOperation Unit}
    (hhandle : ∀ q, handle (.refused .fileExists q) = acceptDirectory p (.refused .fileExists q)) :
    ∃ u₁, (tryCatch (FileOperation.makeDirectory p) handle).run u = (.ok (), u₁) ∧
      t₁.Lacks u₁ loc b := by
  obtain ⟨hd, hok⟩ | ⟨e', herror⟩ := run_acceptDirectory p e t
  · rw [hok] at he
    cases he
    obtain ⟨hnul, hd⟩ := isDirectory_eq_true.1 hd
    have hd' := h.same.hasDirectory_iff.2 hd
    refine ⟨u, ?_, h⟩
    rw [run_tryCatch, run_makeDirectory_of_directory hnul hd']
    dsimp only
    rw [hhandle, run_acceptDirectory_of_directory hnul hd']
  · rw [herror] at he
    cases he

theorem makeDirectoriesRev (h : t.Lacks u loc b) {s : Nat} {rev : List String}
    (hrun : (makeDirectoriesRev s rev).run t = (.ok (), t₁)) :
    ∃ u₁, (FileOperation.makeDirectoriesRev s rev).run u = (.ok (), u₁) ∧ t₁.Lacks u₁ loc b := by
  induction rev generalizing t u t₁ with
  | nil => exact h.tryMakeDirectory hrun fun e _ he => h.accept he fun _ => rfl
  | cons last rev ih =>
    rw [FileOperation.makeDirectoriesRev] at hrun ⊢
    refine h.tryMakeDirectory hrun fun e hmake he => ?_
    split at he
    next q =>
      obtain ⟨_, t₂, hrev, hlast⟩ := run_bind_eq_ok he
      obtain ⟨u₂, hrev', h₂⟩ := ih h hrev
      obtain ⟨u₁, hlast', h₁⟩ := h₂.tryMakeDirectory hlast fun e _ he => by
        split at he
        next => cases he
        next => exact h₂.accept he fun _ => rfl
      obtain ⟨hnul, hmissing⟩ := notFound_of_makeDirectory hmake
      refine ⟨u₁, ?_, h₁⟩
      rw [run_tryCatch, run_makeDirectory_of_error hnul (h.locate_notFound hmissing)]
      dsimp only
      rw [run_bind, hrev']
      exact hlast'
    next => exact h.accept he fun _ => rfl

theorem makeDirectories (h : t.Lacks u loc b)
    (hrun : (makeDirectories p).run t = (.ok (), t₁)) :
    ∃ u₁, (FileOperation.makeDirectories p).run u = (.ok (), u₁) ∧ t₁.Lacks u₁ loc b :=
  h.makeDirectoriesRev hrun

/-! ## Writing files -/

theorem write (h : t.Lacks u loc b) (hw : t.Writable p) (content : ByteArray) :
    (t.write p content).Lacks (u.write p content) loc b := by
  obtain ⟨hnul, loc', hloc, hd⟩ := hw
  rw [write_of_locate hloc, write_of_locate (h.same.locate_iff.2 hloc)]
  exact h.put hnul hloc hd _

theorem writeAll (h : t.Lacks u loc b) {files : List (Path × ByteArray)}
    (hw : ∀ x ∈ files, t.Writable x.1) : (t.writeAll files).Lacks (u.writeAll files) loc b := by
  induction files generalizing t u with
  | nil => exact h
  | cons x files ih => exact ih (h.write (hw x List.mem_cons_self) x.2) (writable_tail hw)

end Lacks

end Tree

end ScriptBundle
