import ScriptBundle.Proofs.Tree.Operations
import ScriptBundle.Proofs.Tree.Selection
/-!
# Operations that change nothing

To create a directory that is there changes nothing (`run_makeDirectories_of_directory`), and
neither does writing files that stand where they are to be written (`Tree.writeAll_of_holdsAll`).
-/

namespace ScriptBundle

namespace FileOperation

open ScriptBundle.Tree

variable {t : Tree} {p : Path}

theorem run_makeDirectory_of_directory (hnul : p.hasNul = false) (h : t.HasDirectory p) :
    (makeDirectory p).run t = (.error (.refused .fileExists p), t) := by
  obtain ⟨loc, hloc, hd⟩ := h
  rw [makeDirectory, run_bind, run_locate_of_ok hnul hloc]
  dsimp only
  rw [run_get_bind, isDirectoryAt_iff.1 hd]
  rfl

theorem run_acceptDirectory_of_directory (hnul : p.hasNul = false) (h : t.HasDirectory p)
    (kind : FileErrorKind) (q : Path) :
    (acceptDirectory p (.refused kind q)).run t = (.ok (), t) := by
  rw [acceptDirectory, run_get_bind, isDirectory_eq_true.2 ⟨hnul, h⟩]
  rfl

theorem run_makeDirectoriesRev_of_directory {s : Nat} {rev : List String}
    (hnul : (Path.mk s rev.reverse).hasNul = false) (h : t.HasDirectory ⟨s, rev.reverse⟩) :
    (makeDirectoriesRev s rev).run t = (.ok (), t) := by
  have hmake := run_makeDirectory_of_directory hnul h
  have haccept := run_acceptDirectory_of_directory hnul h .fileExists ⟨s, rev.reverse⟩
  cases rev with
  | nil =>
    rw [makeDirectoriesRev, run_tryCatch]
    rw [List.reverse_nil] at hmake haccept
    rw [hmake]
    exact haccept
  | cons last rev =>
    rw [makeDirectoriesRev, run_tryCatch, hmake]
    exact haccept

theorem run_makeDirectories_of_directory (hnul : p.hasNul = false) (h : t.HasDirectory p) :
    (makeDirectories p).run t = (.ok (), t) := by
  have hp : p = ⟨p.slashes, p.parts.reverse.reverse⟩ := by rw [List.reverse_reverse]
  rw [hp] at hnul h
  exact run_makeDirectoriesRev_of_directory hnul h

end FileOperation

namespace Tree

variable {t : Tree} {loc : List String} {e : Entry} {files : List (Path × ByteArray)}

theorem lookup_nil_put (h : loc ≠ []) : (t.put loc e).entries.lookup [] = t.entries.lookup [] := by
  rw [entries_put]
  split_ifs
  · rw [lookup_replace, if_neg h.symm]
  · rw [List.lookup_append, lookup_cons_ne h.symm]
    simp

theorem lookup_nil_writeAll (hw : ∀ x ∈ files, t.Writable x.1) :
    (t.writeAll files).entries.lookup [] = t.entries.lookup [] := by
  induction files generalizing t with
  | nil => rfl
  | cons x files ih =>
    obtain ⟨-, loc, hloc, hd⟩ := hw x List.mem_cons_self
    refine (ih (writable_tail hw)).trans ?_
    rw [write_of_locate hloc, lookup_nil_put (ne_nil_of_not_directory hd)]

/-- Where something stands already, no new place is written to. -/
theorem keys_writeAll (hw : ∀ x ∈ files, t.Writable x.1)
    (hthere : ∀ x ∈ files, ∀ loc, t.locate x.1 = .ok loc → t.entryAt? loc ≠ none) :
    (t.writeAll files).entries.map Prod.fst = t.entries.map Prod.fst := by
  induction files generalizing t with
  | nil => rfl
  | cons x files ih =>
    have hsame := (hw x List.mem_cons_self).sameDirectories x.2
    obtain ⟨-, loc, hloc, hd⟩ := hw x List.mem_cons_self
    have hnil := ne_nil_of_not_directory hd
    have hstays : ∀ y ∈ files, ∀ q, (t.write x.1 x.2).locate y.1 = .ok q →
        (t.write x.1 x.2).entryAt? q ≠ none := by
      intro y hy q hq
      rw [write_of_locate hloc, entryAt?_put hnil]
      split_ifs
      · exact Option.some_ne_none _
      · exact hthere y (List.mem_cons_of_mem _ hy) q (hsame.locate_iff.1 hq)
    refine (ih (writable_tail hw) hstays).trans ?_
    obtain ⟨e, he⟩ := Option.ne_none_iff_exists'.1 (hthere x List.mem_cons_self loc hloc)
    rw [write_of_locate hloc, keys_put, if_pos (List.mem_map_of_mem (mem_entries hnil he))]

/-- A file that is written stands, as it is, where its path leads, or one written later does. -/
theorem HoldsAll.entryAt? (h : t.HoldsAll files) {x : Path × ByteArray} (hx : x ∈ files)
    (hloc : t.locate x.1 = .ok loc) :
    ∃ before y after, files = before ++ y :: after ∧ t.locate y.1 = .ok loc ∧
      (∀ z ∈ after, t.locate z.1 ≠ .ok loc) ∧ t.entryAt? loc = some (.file y.2) := by
  obtain ⟨before, y, after, heq, hy, hafter⟩ :=
    exists_last (P := fun y : Path × ByteArray => t.locate y.1 = .ok loc) ⟨x, hx, hloc⟩
  obtain ⟨-, loc', hloc', hfile⟩ := readFile_eq_ok.1
    (h before y after heq fun z hz heq => hafter z hz (heq.trans hy))
  obtain rfl := Except.ok.inj (hy.symm.trans hloc')
  exact ⟨before, y, after, heq, hy, hafter, hfile⟩

/-- Where something stands, something does when files have been written. -/
theorem has_writeAll (hw : ∀ x ∈ files, t.Writable x.1) {p : Path} (h : t.Has p) :
    (t.writeAll files).Has p := by
  obtain ⟨loc, e, hloc, he⟩ := h
  have hloc' := (sameDirectories_writeAll hw).locate_iff.2 hloc
  have hentry := entryAt?_writeAll_eq hw loc
  rw [he, Option.or_some] at hentry
  exact ⟨loc, _, hloc', hentry⟩

/-- Files that stand where they are to be written change nothing. -/
theorem writeAll_of_holdsAll (ht : t.WellFormed) (hw : ∀ x ∈ files, t.Writable x.1)
    (h : t.HoldsAll files) : t.writeAll files = t := by
  have hkeys := keys_writeAll hw fun x hx loc hloc => by
    obtain ⟨before, y, after, -, -, -, hfile⟩ := h.entryAt? hx hloc
    rw [hfile]
    exact Option.some_ne_none _
  have hlookup : ∀ loc, (t.writeAll files).entries.lookup loc = t.entries.lookup loc := by
    intro loc
    by_cases hnil : loc = []
    · subst hnil
      exact lookup_nil_writeAll hw
    · rw [← entryAt?_eq_lookup hnil, ← entryAt?_eq_lookup hnil]
      by_cases hsome : ∃ x ∈ files, t.locate x.1 = .ok loc
      · obtain ⟨x, hx, hloc⟩ := hsome
        obtain ⟨before, y, after, rfl, hy, hafter, hfile⟩ := h.entryAt? hx hloc
        rw [entryAt?_writeAll hw hy hafter, hfile]
      · exact entryAt?_writeAll_of_ne hw fun x hx hloc => hsome ⟨x, hx, hloc⟩
  have hentries := eq_of_lookup hkeys ht.distinct hlookup
  have hhere := (sameDirectories_writeAll hw).here
  cases hv : t.writeAll files
  rw [hv] at hentries hhere
  cases t
  exact congrArg₂ Tree.mk hentries hhere

end Tree

end ScriptBundle
