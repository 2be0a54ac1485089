import ScriptBundle.Emission
import ScriptBundle.Proofs.Tree.Places
/-!
# Names that match patterns

The names in a directory are those of the entries in it (`mem_names`). A pattern of one component
chooses those of them that it stands for (`Glob.select_pattern`), and the pattern for bundles is one
of these if there is no slash in the extension (`Tree.bundleFiles_eq`).
-/

namespace ScriptBundle

/-! ## Texts as components of paths -/

theorem splitOnChar_go_of_notMem {c : Char} {cs : List Char} (h : c ∉ cs) (piece : List Char) :
    Text.splitOnChar.go c cs piece = [String.ofList (piece.reverse ++ cs)] := by
  induction cs generalizing piece with
  | nil => simp [Text.splitOnChar.go]
  | cons d cs ih =>
    obtain ⟨hd, hcs⟩ := not_or.1 (List.mem_cons.not.1 h)
    rw [Text.splitOnChar.go, if_neg (Ne.symm hd), ih hcs]
    simp

theorem splitOnChar_of_notMem {c : Char} {s : String} (h : c ∉ s.toList) :
    Text.splitOnChar c s = [s] := by
  rw [Text.splitOnChar, splitOnChar_go_of_notMem h]
  simp

theorem splitOnChar_go_append_cons (c : Char) (cs ds piece : List Char) :
    Text.splitOnChar.go c (cs ++ c :: ds) piece =
      Text.splitOnChar.go c cs piece ++ Text.splitOnChar.go c ds [] := by
  induction cs generalizing piece with
  | nil => simp [Text.splitOnChar.go]
  | cons d cs ih =>
    rw [List.cons_append, Text.splitOnChar.go, Text.splitOnChar.go, ih, ih]
    split_ifs <;> rfl

namespace Path

variable {s : String}

/-- The components of two texts with a slash between them. -/
theorem partsOf_append (s s' : String) : partsOf (s ++ "/" ++ s') = partsOf s ++ partsOf s' := by
  have hlist : (s ++ "/" ++ s').toList = s.toList ++ '/' :: s'.toList := by simp
  rw [partsOf, Text.splitOnChar, hlist, splitOnChar_go_append_cons, List.filter_append]
  rfl

theorem partsOf_of_notMem (h : '/' ∉ s.toList) (hempty : s ≠ "") (hdot : s ≠ ".") :
    partsOf s = [s] := by
  rw [partsOf, splitOnChar_of_notMem h]
  simp [hempty, hdot]

theorem child_of_notMem (h : '/' ∉ s.toList) (hempty : s ≠ "") (hdot : s ≠ ".") (p : Path) :
    p.child s = { p with parts := p.parts ++ [s] } := by
  have hslashes : slashesOf s.toList = 0 := by
    rw [slashesOf.eq_def]
    split <;> simp_all
  rw [child, join, ofString, hslashes, partsOf_of_notMem h hempty hdot]
  rfl

end Path

theorem toList_bundleFileName (key ext : String) :
    (bundleFileName key ext).toList = key.toList ++ '.' :: 'g' :: '.' :: ext.toList := by
  simp [bundleFileName]

theorem bundleFileName_injective {key key' ext : String}
    (h : bundleFileName key ext = bundleFileName key' ext) : key = key' := by
  have h := congrArg String.toList h
  rw [toList_bundleFileName, toList_bundleFileName] at h
  exact String.toList_inj.1 (List.append_cancel_right h)

/-- The name of a bundle's file is none of the texts that stand for directories. -/
theorem bundleFileName_ne {key ext s : String} (h : 'g' ∉ s.toList) :
    bundleFileName key ext ≠ s := by
  rintro rfl
  exact h (by simp [toList_bundleFileName])

/-! ## Names in a directory -/

namespace Tree

variable {t : Tree} {loc : List String} {n : String}

/-- The name of a location in a directory. -/
def nameIn (loc l : List String) : Option String :=
  match l.getLast? with
  | some n => if l.dropLast = loc then some n else none
  | none => none

theorem nameIn_eq_some {l : List String} : nameIn loc l = some n ↔ l = loc ++ [n] := by
  rw [nameIn]
  obtain rfl | ⟨l, m, rfl⟩ := List.eq_nil_or_concat l
  · simp
  · simp only [List.concat_eq_append, List.getLast?_concat, List.dropLast_concat]
    split_ifs with h
    · simp [h]
    · simp [h]

theorem names_eq (t : Tree) (loc : List String) :
    t.names loc = (t.entries.map Prod.fst).filterMap (nameIn loc) := by
  rw [names, List.filterMap_map]
  rfl

theorem mem_names : n ∈ t.names loc ↔ loc ++ [n] ∈ t.entries.map Prod.fst := by
  rw [names_eq, List.mem_filterMap]
  simp [nameIn_eq_some]

theorem WellFormed.mem_names_iff (h : t.WellFormed) :
    n ∈ t.names loc ↔ ∃ e, t.entryAt? (loc ++ [n]) = some e := by
  rw [mem_names]
  constructor
  · intro hmem
    obtain ⟨x, hx, heq⟩ := List.mem_map.1 hmem
    refine ⟨x.2, ?_⟩
    rw [entryAt?_eq_lookup (by simp)]
    exact lookup_of_mem h.distinct (heq ▸ hx)
  · rintro ⟨e, he⟩
    exact List.mem_map_of_mem (mem_entries (by simp) he)

end Tree

/-! ## Patterns -/

namespace Glob

/-- A pattern of one component chooses among the names in a directory. -/
theorem select_pattern (t : Tree) (pat : String) (dir : Path) :
    select t false [.pattern pat] dir = .ok (match directoryLocation t dir with
      | none => []
      | some loc => ((t.names loc).filter fun n => nameMatches pat n).map fun n =>
        { dir with parts := dir.parts ++ [n] }) := by
  rw [select]
  cases directoryLocation t dir with
  | none => rfl
  | some loc =>
    have hpure : ∀ l : List String, l.mapM (fun n =>
        (.ok [{ dir with parts := dir.parts ++ [n] }] : Except FileError (List Path))) =
          .ok (l.map fun n => [{ dir with parts := dir.parts ++ [n] }]) :=
      fun l => List.mapM_pure
    simp only [select, List.isEmpty_nil, Bool.not_true, Bool.false_or, Bool.not_false,
      Bool.true_or, Bool.and_true]
    rw [hpure]
    exact congrArg Except.ok (by rw [← List.flatMap_def, List.map_eq_flatMap])

theorem hasDoubleStar_bundlePattern (ext : String) :
    hasDoubleStar (bundlePattern ext).toList = hasDoubleStar ext.toList := by
  rw [bundlePattern, toList_bundleFileName]
  rfl

theorem selector?_bundlePattern (ext : String) : selector? (bundlePattern ext) =
    if hasDoubleStar ext.toList then none else some (.pattern (bundlePattern ext)) := by
  have hname : bundlePattern ext ≠ "**" := bundleFileName_ne (by simp)
  have hstar : ((bundlePattern ext).toList.any fun c => c == '*' || c == '?' || c == '[') =
      true := by
    rw [bundlePattern, toList_bundleFileName]
    rfl
  rw [selector?]
  simp only [hname, if_false, hasDoubleStar_bundlePattern, hstar, if_true]

theorem selectors?_bundlePattern {ext : String} (h : '/' ∉ ext.toList) :
    selectors? (bundlePattern ext) = if hasDoubleStar ext.toList then none
      else some ([.pattern (bundlePattern ext)], false) := by
  have hslash : '/' ∉ (bundlePattern ext).toList := by
    simp [bundlePattern, toList_bundleFileName, h]
  have hlast : ((bundlePattern ext).toList.getLast? == some '/') = false := by
    rw [beq_eq_false_iff_ne]
    exact fun h => hslash (List.mem_of_getLast? h)
  rw [selectors?, hlast, Path.partsOf_of_notMem hslash (bundleFileName_ne (by simp))
    (bundleFileName_ne (by simp))]
  simp only [List.mapM_cons, List.mapM_nil, selector?_bundlePattern]
  split_ifs <;> rfl

end Glob

/-- The paths that look like bundles are those of names in the directory, unless there are two
stars side by side in the extension. -/
theorem Tree.bundleFiles_eq {ext : String} (h : '/' ∉ ext.toList) (t : Tree) (dir : Path) :
    t.bundleFiles dir ext = if Glob.hasDoubleStar ext.toList then .error .doubleStar
      else .ok (match Glob.directoryLocation t dir with
        | none => []
        | some loc =>
          ((t.names loc).filter fun n => Glob.nameMatches (bundlePattern ext) n).map fun n =>
            { dir with parts := dir.parts ++ [n] }) := by
  rw [bundleFiles, Glob.selectors?_bundlePattern h]
  split_ifs
  · rfl
  · exact Glob.select_pattern t _ dir

theorem Tree.exists_of_mem_bundleFiles {ext : String} (h : '/' ∉ ext.toList) {t : Tree} {dir : Path}
    {found : List Path} (hf : t.bundleFiles dir ext = .ok found) {p : Path} (hp : p ∈ found) :
    ∃ n, p = { dir with parts := dir.parts ++ [n] } := by
  rw [bundleFiles_eq h] at hf
  split_ifs at hf
  cases hf
  split at hp
  next => cases hp
  next =>
    obtain ⟨n, -, rfl⟩ := List.mem_map.1 hp
    exact ⟨n, rfl⟩

end ScriptBundle
