import ScriptBundle.Discovery
import ScriptBundle.Proofs.Emission
/-!
# Ends of names

A pattern that starts with a star and holds no other special character stands for the names with the
end that follows the star (`Glob.nameMatches_star`). Such are the pattern of render files and that
of bundles, if their extension is `Literal`, and no name has both ends if it is a `PlainExtension`
(`not_matches_renderFilePattern`). The name of the file of a bundle has the end of bundles, whatever
the key of the bundle is (`suffix_name_bundlePath`).
-/

namespace ScriptBundle

/-! ## Patterns that start with a star -/

namespace Glob

theorem mem_suffixes {α : Type} {l s : List α} : s ∈ suffixes l ↔ s <:+ l := by
  induction l with
  | nil => simp [suffixes]
  | cons a l ih => rw [suffixes, List.mem_cons, List.suffix_cons_iff, ih]

theorem matchPieces_only {cs l : List Char} :
    matchPieces (cs.map .only) l = true ↔ l = cs := by
  induction cs generalizing l with
  | nil => simp [matchPieces]
  | cons c cs ih =>
    cases l with
    | nil => simp [matchPieces]
    | cons d l => simp [matchPieces, Piece.admits, ih]

theorem matchPieces_run {cs l : List Char} :
    matchPieces (.run :: cs.map .only) l = true ↔ cs <:+ l := by
  simp [matchPieces, matchPieces_only, mem_suffixes]

/-- The characters that stand for others in a pattern. -/
def specials : List Char := ['*', '?', '[']

/-- No character of a text means something in patterns. -/
def Literal (cs : List Char) : Prop := ∀ c ∈ cs, c ∉ specials

instance (cs : List Char) : Decidable (Literal cs) := List.decidableBAll _ cs

theorem piecesFrom_of_literal {cs : List Char} (h : Literal cs) {fuel : Nat}
    (hfuel : cs.length < fuel) : piecesFrom fuel cs = cs.map .only := by
  induction cs generalizing fuel with
  | nil =>
    cases fuel with
    | zero => rfl
    | succ fuel => simp [piecesFrom]
  | cons c cs ih =>
    obtain ⟨hc, hcs⟩ := List.forall_mem_cons.1 h
    simp only [specials, List.mem_cons, List.not_mem_nil, or_false, not_or] at hc
    cases fuel with
    | zero => cases hfuel
    | succ fuel =>
      rw [piecesFrom, ih hcs (by simpa using hfuel), List.map_cons]
      · exact hc.1
      · exact hc.2.1
      · exact hc.2.2

/-- A pattern that starts with a star stands for the names with a certain end. -/
theorem nameMatches_star {s : String} (h : Literal s.toList) (n : String) :
    nameMatches ("*" ++ s) n = true ↔ s.toList <:+ n.toList := by
  rw [nameMatches, pieces, String.toList_append, ← matchPieces_run]
  exact Eq.congr_left (congrArg (matchPieces · n.toList)
    (congrArg (Piece.run :: ·) (piecesFrom_of_literal h (by simp))))

end Glob

theorem nameMatches_renderFilePattern (n : String) :
    Glob.nameMatches renderFilePattern n = true ↔ ".render.json".toList <:+ n.toList :=
  Glob.nameMatches_star (s := ".render.json") (by decide) n

/-! ## Extensions -/

/-- The end of the names of bundles. -/
def bundleEnd (ext : String) : List Char := '.' :: 'g' :: '.' :: ext.toList

variable {ext : String}

/-- With an extension in which no character means something, the pattern of bundles stands for the
names with that end. -/
theorem Glob.Literal.nameMatches_bundlePattern (h : Glob.Literal ext.toList) (n : String) :
    Glob.nameMatches (bundlePattern ext) n = true ↔ bundleEnd ext <:+ n.toList := by
  have hpattern : bundlePattern ext = "*" ++ (".g." ++ ext) := by
    rw [bundlePattern, bundleFileName, String.append_assoc]
  have hstart : Glob.Literal ".g.".toList := by decide
  have hliteral : Glob.Literal (".g." ++ ext).toList := by
    rw [Glob.Literal, String.toList_append, List.forall_mem_append]
    exact ⟨hstart, h⟩
  rw [hpattern, Glob.nameMatches_star hliteral, String.toList_append]
  rfl

/-- An extension without the characters that mean something in paths, patterns and names of files.
-/
def PlainExtension (ext : String) : Prop := ∀ c ∈ ext.toList, c ∉ '/' :: '.' :: Glob.specials

instance (ext : String) : Decidable (PlainExtension ext) :=
  List.decidableBAll _ ext.toList

namespace PlainExtension

theorem slash (h : PlainExtension ext) : '/' ∉ ext.toList := fun hc => h _ hc (by simp)

theorem dot (h : PlainExtension ext) : '.' ∉ ext.toList := fun hc => h _ hc (by simp)

theorem literal (h : PlainExtension ext) : Glob.Literal ext.toList := fun c hc hmem =>
  h c hc (List.mem_cons_of_mem _ (List.mem_cons_of_mem _ hmem))

/-- No name of a bundle is one of a render file: what stands between its last two dots is
different. -/
theorem not_matches_renderFilePattern (h : PlainExtension ext) {n : String}
    (hn : bundleEnd ext <:+ n.toList) : Glob.nameMatches renderFilePattern n = false := by
  rw [Bool.eq_false_iff, Ne, nameMatches_renderFilePattern]
  intro hrender
  obtain ⟨start, hstart⟩ := hn
  obtain ⟨start', hstart'⟩ := hrender
  have hrev := congrArg List.reverse (hstart.trans hstart'.symm)
  have hext : ∀ c ∈ ext.toList.reverse, (c != '.') = true := fun c hc => by
    rw [bne_iff_ne]
    rintro rfl
    exact h.dot (List.mem_reverse.1 hc)
  have hdrop := congrArg (List.dropWhile (· != '.')) hrev
  simp only [bundleEnd, List.reverse_append, List.reverse_cons, List.append_assoc] at hdrop
  rw [List.dropWhile_append_of_pos hext] at hdrop
  simp at hdrop

end PlainExtension

/-! ## Names of bundles -/

/-- The last piece of a text keeps its end. -/
theorem splitOnChar_go_append {c : Char} {e : List Char} (he : c ∉ e) (cs piece : List Char) :
    ∃ before last, Text.splitOnChar.go c (cs ++ e) piece = before ++ [last] ∧
      e <:+ last.toList := by
  induction cs generalizing piece with
  | nil =>
    refine ⟨[], _, splitOnChar_go_of_notMem he piece, ?_⟩
    rw [String.toList_ofList]
    exact List.suffix_append _ _
  | cons d cs ih =>
    rw [List.cons_append, Text.splitOnChar.go]
    split_ifs
    · obtain ⟨before, last, heq, hlast⟩ := ih []
      exact ⟨_ :: before, last, by rw [heq]; rfl, hlast⟩
    · exact ih _

theorem Path.name_child {s n : String} {before : List String} (h : partsOf s = before ++ [n])
    (p : Path) : (p.child s).name = n := by
  rw [child, join, name]
  split_ifs
  · simp [ofString, h]
  · simp [ofString, h, ← List.append_assoc]

/-- The name of the file of a bundle ends as names of bundles do. -/
theorem suffix_name_bundlePath (h : '/' ∉ ext.toList) {o : EmissionOptions}
    (ho : o.scriptExt = ext) (dir : Path) (key : String) :
    bundleEnd ext <:+ (o.bundlePath dir key).name.toList := by
  subst ho
  obtain ⟨before, last, hsplit, hlast⟩ := splitOnChar_go_append (c := '/')
    (e := bundleEnd o.scriptExt) (by simpa [bundleEnd] using h) key.toList []
  have hg : 'g' ∈ last.toList := hlast.subset (by simp [bundleEnd])
  have hparts : Path.partsOf (bundleFileName key o.scriptExt) =
      before.filter (fun p => !p.isEmpty && p != ".") ++ [last] := by
    have hkeep : (!last.isEmpty && last != ".") = true := by
      rw [Bool.and_eq_true, Bool.not_eq_true', bne_iff_ne]
      constructor
      · rw [Bool.eq_false_iff, Ne, String.isEmpty_iff]
        rintro rfl
        cases hg
      · rintro rfl
        revert hg
        decide
    rw [Path.partsOf, Text.splitOnChar, toList_bundleFileName]
    refine (congrArg (List.filter _) hsplit).trans ?_
    rw [List.filter_append, List.filter_cons, if_pos hkeep, List.filter_nil]
  rwa [EmissionOptions.bundlePath, Path.name_child hparts]

end ScriptBundle
