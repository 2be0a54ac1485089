import Mathlib.Data.List.Perm.Subperm
import ScriptBundle.Proofs.Lists
import ScriptBundle.Proofs.Tree.Patterns
/-!
# Paths that selectors choose

`Glob.select` walks through a directory in the order in which its names were created, and the paths
that it finds are those that `Glob.Chosen` holds of (`mem_select`). Whether it fails depends only on
which places are directories (`exists_select_congr`), and in a tree with the same directories and
fewer files the paths are those that still lead to something (`chosen_iff`).
-/

namespace ScriptBundle

/-- The path some names further. -/
def Path.below (p : Path) (ns : List String) : Path := { p with parts := p.parts ++ ns }

@[simp] theorem Path.below_nil (p : Path) : p.below [] = p := by simp [Path.below]

theorem Path.below_append (p : Path) (ns ms : List String) :
    p.below (ns ++ ms) = (p.below ns).below ms := by simp [Path.below]

namespace Tree

variable {t u : Tree} {loc loc' : List String} {p : Path} {n : String}

/-- A path leads to something. -/
def Has (t : Tree) (p : Path) : Prop := ∃ loc e, t.locate p = .ok loc ∧ t.entryAt? loc = some e

/-- A path leads to a directory. -/
def HasDirectory (t : Tree) (p : Path) : Prop :=
  ∃ loc, t.locate p = .ok loc ∧ t.isDirectoryAt loc = true

theorem HasDirectory.has (h : t.HasDirectory p) : t.Has p := by
  obtain ⟨loc, hloc, hd⟩ := h
  exact ⟨loc, _, hloc, isDirectoryAt_iff.1 hd⟩

/-- No path with a null character leads to something. -/
theorem WellFormed.hasNul_of_has (ht : t.WellFormed) (h : t.Has p) : p.hasNul = false := by
  obtain ⟨s, ps⟩ := p
  induction ps using List.reverseRecOn with
  | nil => rfl
  | append_singleton ps n ih =>
    obtain ⟨loc, e, hloc, he⟩ := h
    obtain ⟨loc', hloc', henter⟩ := locate_concat.1 hloc
    obtain ⟨hd, hn⟩ := enter_eq_ok.1 henter
    have hps := ih ⟨loc', _, hloc', isDirectoryAt_iff.1 hd⟩
    have hnul : '\x00' ∉ n.toList := by
      obtain ⟨rfl, -⟩ | ⟨-, -, rfl⟩ := hn
      · decide
      · exact (ht.isName he (by simp)).2.1
    rw [Path.hasNul] at hps ⊢
    rw [List.any_append, hps]
    simpa using hnul

theorem SameDirectories.hasDirectory_iff (h : t.SameDirectories u) :
    u.HasDirectory p ↔ t.HasDirectory p := by
  simp only [HasDirectory, h.locate_iff, h.isDirectoryAt]

/-- A name further in a directory. -/
theorem locate_below (hp : t.locate p = .ok loc) (hd : t.isDirectoryAt loc = true) (hn : IsName n) :
    t.locate (p.below [n]) = .ok (loc ++ [n]) :=
  locate_concat.2 ⟨loc, hp, enter_eq_ok.2 ⟨hd, .inr ⟨hn.1, hn.2.2, rfl⟩⟩⟩

theorem exists_of_locate_below (h : t.locate (p.below [n]) = .ok loc') (hn : n ≠ "..") :
    ∃ loc, t.locate p = .ok loc ∧ t.isDirectoryAt loc = true ∧ loc' = loc ++ [n] := by
  obtain ⟨loc, hp, h⟩ := locate_concat.1 h
  obtain ⟨hd, ⟨hdots, -⟩ | ⟨-, -, rfl⟩⟩ := enter_eq_ok.1 h
  · exact absurd hdots hn
  · exact ⟨loc, hp, hd, rfl⟩

/-- Names further from directory to directory. -/
theorem WellFormed.locate_below (h : t.WellFormed) (hp : t.locate p = .ok loc) {ns : List String}
    (hd : t.isDirectoryAt (loc ++ ns) = true) : t.locate (p.below ns) = .ok (loc ++ ns) := by
  induction ns using List.reverseRecOn with
  | nil => simpa using hp
  | append_singleton ns n ih =>
    rw [← List.append_assoc] at hd ⊢
    have hparent := h.parent_of_entry (isDirectoryAt_iff.1 hd)
    rw [List.dropLast_concat] at hparent
    rw [Path.below_append]
    exact Tree.locate_below (ih hparent) hparent (h.isName (isDirectoryAt_iff.1 hd) (by simp))

theorem eq_of_locate_below (hp : t.locate p = .ok loc) {ns : List String} (hns : ".." ∉ ns)
    (h : t.locate (p.below ns) = .ok loc') : loc' = loc ++ ns := by
  induction ns using List.reverseRecOn generalizing loc' with
  | nil =>
    rw [Path.below_nil] at h
    rw [List.append_nil]
    exact Except.ok.inj (h.symm.trans hp)
  | append_singleton ns n ih =>
    rw [Path.below_append] at h
    obtain ⟨hns, hn⟩ := not_or.1 (List.mem_append.not.1 hns)
    obtain ⟨loc₁, hloc₁, -, rfl⟩ := exists_of_locate_below h fun heq => hn (by simp [heq])
    rw [ih hns hloc₁, List.append_assoc]

/-- Something stands as deep at most as there are entries, since all that it lies in are some. -/
theorem WellFormed.length_le (h : t.WellFormed) {e : Entry} (he : t.entryAt? loc = some e) :
    loc.length ≤ t.entries.length := by
  have hkeys : ∀ i < loc.length, loc.take (i + 1) ∈ t.entries.map Prod.fst := by
    intro i hi
    have hne : loc.take (i + 1) ≠ [] := by
      rw [← List.length_pos_iff, List.length_take]
      omega
    by_cases heq : loc.take (i + 1) = loc
    · rw [heq] at hne ⊢
      exact List.mem_map_of_mem (mem_entries hne he)
    · have hd := h.above (List.take_prefix _ _) heq he
      exact List.mem_map_of_mem (mem_entries hne (isDirectoryAt_iff.1 hd))
  have hnodup : ((List.range loc.length).map fun i => loc.take (i + 1)).Nodup := by
    refine List.Nodup.map_on (fun i hi j hj heq => ?_) List.nodup_range
    have hlen := congrArg List.length heq
    rw [List.mem_range] at hi hj
    rw [List.length_take, List.length_take] at hlen
    omega
  have hsub := List.subperm_of_subset hnodup fun l hl => by
    obtain ⟨i, hi, rfl⟩ := List.mem_map.1 hl
    exact hkeys i (List.mem_range.1 hi)
  simpa using hsub.length_le

/-- A name is found to be too long in a directory. -/
theorem locate_concat_tooLong {s : Nat} {ps : List String} :
    t.locate ⟨s, ps ++ [n]⟩ = .error .nameTooLong ↔ t.locate ⟨s, ps⟩ = .error .nameTooLong ∨
      ∃ loc, t.locate ⟨s, ps⟩ = .ok loc ∧ t.isDirectoryAt loc = true ∧ n ≠ ".." ∧
        nameLimit < n.utf8ByteSize := by
  rw [locate_concat_eq]
  cases t.locate ⟨s, ps⟩ with
  | error k => simp [Except.bind]
  | ok loc =>
    simp only [Except.bind, enter, Except.ok.injEq, exists_eq_left', reduceCtorEq, false_or]
    rw [isDirectoryAt]
    cases t.entryAt? loc with
    | none => simp
    | some e =>
      cases e with
      | file b => simp
      | directory =>
        by_cases hn : n = ".."
        · simp [hn]
        · by_cases hlong : nameLimit < n.utf8ByteSize <;> simp [hn, hlong]

theorem SameDirectories.tooLong_iff (h : t.SameDirectories u) :
    u.locate p = .error .nameTooLong ↔ t.locate p = .error .nameTooLong := by
  obtain ⟨s, ps⟩ := p
  induction ps using List.reverseRecOn with
  | nil => exact iff_of_false nofun nofun
  | append_singleton ps n ih =>
    simp only [locate_concat_tooLong, ih, h.locate_iff, h.isDirectoryAt]

/-- A test fails over nothing but a name that is too long. -/
theorem exists_test_iff {holds : Entry → Bool} : (∃ b, t.test p holds = .ok b) ↔
    p.hasNul = true ∨ t.locate p ≠ .error .nameTooLong := by
  rw [test, stat]
  cases p.hasNul with
  | true => simp
  | false =>
    cases t.locate p with
    | error k => cases k <;> simp
    | ok loc => cases he : t.entryAt? loc <;> simp [he]

theorem test_eq_true {holds : Entry → Bool} : t.test p holds = .ok true ↔ p.hasNul = false ∧
    ∃ loc e, t.locate p = .ok loc ∧ t.entryAt? loc = some e ∧ holds e = true := by
  rw [test, stat]
  cases p.hasNul with
  | true => simp
  | false =>
    cases t.locate p with
    | error k => cases k <;> simp
    | ok loc => cases he : t.entryAt? loc <;> simp [he]

theorem existsAt_eq_true : t.existsAt p = .ok true ↔ p.hasNul = false ∧ t.Has p := by
  rw [existsAt, test_eq_true]
  simp [Has]

theorem isDirectory_eq_true : t.isDirectory p = .ok true ↔ p.hasNul = false ∧ t.HasDirectory p := by
  rw [isDirectory, test_eq_true]
  refine and_congr_right fun _ => exists_congr fun loc => ?_
  rw [isDirectoryAt_iff]
  constructor
  · rintro ⟨e, hloc, he, hd⟩
    cases e with
    | file b => cases hd
    | directory => exact ⟨hloc, he⟩
  · rintro ⟨hloc, he⟩
    exact ⟨_, hloc, he, rfl⟩

end Tree

namespace Glob

open ScriptBundle.Tree

variable {t u : Tree} {loc : List String} {p q : Path} {s : Selector} {rest : List Selector}
  {onlyDirectories : Bool}

theorem directoryLocation_eq_some : directoryLocation t p = some loc ↔
    t.locate p = .ok loc ∧ t.isDirectoryAt loc = true := by
  rw [directoryLocation]
  cases t.locate p with
  | error k => simp
  | ok loc' =>
    dsimp only
    split_ifs with hd
    · rw [Option.some_inj, Except.ok.injEq, and_iff_left_of_imp]
      rintro rfl
      exact hd
    · rw [Except.ok.injEq]
      refine ⟨nofun, ?_⟩
      rintro ⟨rfl, hd'⟩
      exact absurd hd' hd

/-! ## Directories below a directory -/

theorem mem_directoriesBelow (ht : t.WellFormed) {fuel : Nat} (hd : t.isDirectoryAt loc = true)
    {d : List String} : d ∈ directoriesBelow t fuel loc ↔
      ∃ ns, d = loc ++ ns ∧ ns.length ≤ fuel ∧ t.isDirectoryAt d = true := by
  induction fuel generalizing loc with
  | zero =>
    rw [directoriesBelow, List.mem_singleton]
    constructor
    · rintro rfl
      exact ⟨[], by simp, by simp, hd⟩
    · rintro ⟨ns, rfl, hns, -⟩
      rw [List.length_eq_zero_iff.1 (Nat.le_zero.1 hns), List.append_nil]
  | succ fuel ih =>
    rw [directoriesBelow, List.mem_cons, List.mem_flatMap]
    constructor
    · rintro (rfl | ⟨n, hn, hmem⟩)
      · exact ⟨[], by simp, by simp, hd⟩
      · obtain ⟨ns, rfl, hns, hd'⟩ := (ih (List.mem_filter.1 hn).2).1 hmem
        exact ⟨n :: ns, by simp, by simpa using hns, hd'⟩
    · rintro ⟨ns, rfl, hns, hd'⟩
      cases ns with
      | nil => exact .inl (List.append_nil _)
      | cons n ns =>
        have hsplit : loc ++ n :: ns = loc ++ [n] ++ ns := by simp
        have hn : t.isDirectoryAt (loc ++ [n]) = true := by
          by_cases heq : ns = []
          · simpa [heq] using hd'
          · refine ht.above ?_ (by simpa using heq) (isDirectoryAt_iff.1 (hsplit ▸ hd'))
            exact List.prefix_append _ _
        have hname := ht.mem_names_iff.2 ⟨_, isDirectoryAt_iff.1 hn⟩
        exact .inr ⟨n, List.mem_filter.2 ⟨hname, hn⟩,
          (ih hn).2 ⟨ns, hsplit, by simpa using hns, hd'⟩⟩

/-- With as much fuel as there are entries all directories are found. -/
theorem mem_directoriesBelow_entries (ht : t.WellFormed) (hd : t.isDirectoryAt loc = true)
    {d : List String} : d ∈ directoriesBelow t t.entries.length loc ↔
      ∃ ns, d = loc ++ ns ∧ t.isDirectoryAt d = true := by
  rw [mem_directoriesBelow ht hd]
  refine exists_congr fun ns => and_congr_right fun hd => ⟨And.right, fun hd' => ⟨?_, hd'⟩⟩
  have hle := ht.length_le (isDirectoryAt_iff.1 hd')
  rw [hd, List.length_append] at hle
  omega

/-! ## What a selector chooses -/

/-- A selector goes from the path `p` to the path `q`, which must lead to a directory if
`dirOnly`. -/
def Next (t : Tree) (dirOnly : Bool) (p q : Path) : Selector → Prop
  | .name n => q = p.below [n] ∧ q.hasNul = false ∧ t.Has q ∧ (dirOnly = true → t.HasDirectory q)
  | .pattern pat => t.HasDirectory p ∧ ∃ n, q = p.below [n] ∧ IsName n ∧
      nameMatches pat n = true ∧ t.Has q ∧ (dirOnly = true → t.HasDirectory q)
  | .directories => t.HasDirectory p ∧ ∃ ns, q = p.below ns ∧ (∀ n ∈ ns, IsName n) ∧
      t.HasDirectory q

/-- Selectors go from the path `p` to the path `q`, one after the other. All but the last go to
directories. -/
def Chosen (t : Tree) (onlyDirectories : Bool) : List Selector → Path → Path → Prop
  | [], p, q => q = p
  | s :: rest, p, q => ∃ p', Next t (!rest.isEmpty || onlyDirectories) p p' s ∧
      Chosen t onlyDirectories rest p' q

theorem Next.has {dirOnly : Bool} (h : Next t dirOnly p q s) : t.Has q := by
  cases s with
  | name n => exact h.2.2.1
  | pattern pat =>
    obtain ⟨-, n, -, -, -, hq, -⟩ := h
    exact hq
  | directories =>
    obtain ⟨-, ns, -, -, hq⟩ := h
    exact hq.has

theorem Next.hasDirectory (h : Next t true p q s) : t.HasDirectory q := by
  cases s with
  | name n => exact h.2.2.2 rfl
  | pattern pat =>
    obtain ⟨-, n, -, -, -, -, hq⟩ := h
    exact hq rfl
  | directories =>
    obtain ⟨-, ns, -, -, hq⟩ := h
    exact hq

/-- What selectors choose leads to something. -/
theorem Chosen.has {sels : List Selector} (hp : t.Has p) (h : Chosen t onlyDirectories sels p q) :
    t.Has q := by
  induction sels generalizing p with
  | nil =>
    obtain rfl : q = p := h
    exact hp
  | cons s rest ih =>
    obtain ⟨p', hnext, h⟩ := h
    exact ih hnext.has h

/-! ## Fewer files -/

theorem next_iff (hsame : t.SameDirectories u) (hfewer : ∀ q, u.Has q → t.Has q) {dirOnly : Bool} :
    Next u dirOnly p q s ↔ Next t dirOnly p q s ∧ u.Has q := by
  have hdir : ∀ p, u.HasDirectory p ↔ t.HasDirectory p := fun p => hsame.hasDirectory_iff
  constructor
  · refine fun h => ⟨?_, h.has⟩
    cases s with
    | name n =>
      obtain ⟨hq, hnul, hhas, hd⟩ := h
      exact ⟨hq, hnul, hfewer q hhas, fun h => (hdir q).1 (hd h)⟩
    | pattern pat =>
      obtain ⟨hp, n, hq, hn, hmatch, hhas, hd⟩ := h
      exact ⟨(hdir p).1 hp, n, hq, hn, hmatch, hfewer q hhas, fun h => (hdir q).1 (hd h)⟩
    | directories =>
      obtain ⟨hp, ns, hq, hns, hd⟩ := h
      exact ⟨(hdir p).1 hp, ns, hq, hns, (hdir q).1 hd⟩
  · rintro ⟨h, hhas⟩
    cases s with
    | name n =>
      obtain ⟨hq, hnul, -, hd⟩ := h
      exact ⟨hq, hnul, hhas, fun h => (hdir q).2 (hd h)⟩
    | pattern pat =>
      obtain ⟨hp, n, hq, hn, hmatch, -, hd⟩ := h
      exact ⟨(hdir p).2 hp, n, hq, hn, hmatch, hhas, fun h => (hdir q).2 (hd h)⟩
    | directories =>
      obtain ⟨hp, ns, hq, hns, hd⟩ := h
      exact ⟨(hdir p).2 hp, ns, hq, hns, (hdir q).2 hd⟩

/-- In a tree with the same directories and fewer files, selectors choose the paths that still lead
to something. -/
theorem chosen_iff (hsame : t.SameDirectories u) (hfewer : ∀ q, u.Has q → t.Has q) (hp : u.Has p)
    {sels : List Selector} : Chosen u onlyDirectories sels p q ↔
      Chosen t onlyDirectories sels p q ∧ u.Has q := by
  induction sels generalizing p with
  | nil =>
    refine ⟨fun h => ⟨h, ?_⟩, And.left⟩
    obtain rfl : q = p := h
    exact hp
  | cons s rest ih =>
    constructor
    · rintro ⟨p', hnext, h⟩
      obtain ⟨hnext', hp'⟩ := (next_iff hsame hfewer).1 hnext
      obtain ⟨h, hq⟩ := (ih hp').1 h
      exact ⟨⟨p', hnext', h⟩, hq⟩
    · rintro ⟨⟨p', hnext, h⟩, hq⟩
      have hp' : u.Has p' := by
        cases rest with
        | nil =>
          obtain rfl : q = p' := h
          exact hq
        | cons s' rest => exact (hsame.hasDirectory_iff.2 hnext.hasDirectory).has
      exact ⟨p', (next_iff hsame hfewer).2 ⟨hnext, hp'⟩, (ih hp').2 ⟨h, hq⟩⟩

/-! ## What is found -/

/-- The paths that a selector goes to, in the order in which they are found. -/
def steps (t : Tree) (dirOnly : Bool) (p : Path) : Selector → Except FileError (List Path)
  | .name n =>
    (if dirOnly then t.isDirectory (p.below [n]) else t.existsAt (p.below [n])).map fun found =>
      if found then [p.below [n]] else []
  | .pattern pat => .ok (match directoryLocation t p with
    | none => []
    | some loc => ((t.names loc).filter fun n =>
        nameMatches pat n && (!dirOnly || t.isDirectoryAt (loc ++ [n]))).map fun n => p.below [n])
  | .directories => .ok (match directoryLocation t p with
    | none => []
    | some loc => (directoriesBelow t t.entries.length loc).map fun d =>
        p.below (d.drop loc.length))

/-- What is found by going on from each of the paths that a selector goes to. Through directories
one path may be come to in several ways. -/
def gather (found : List (List Path)) : Selector → List Path
  | .directories => found.flatten.eraseDups
  | _ => found.flatten

theorem select_cons (t : Tree) (onlyDirectories : Bool) (s : Selector) (rest : List Selector)
    (p : Path) : select t onlyDirectories (s :: rest) p = (do
      let qs ← steps t (!rest.isEmpty || onlyDirectories) p s
      let found ← qs.mapM (select t onlyDirectories rest)
      pure (gather found s)) := by
  cases s with
  | name n =>
    rw [select]
    dsimp only [steps, Path.below]
    cases (if (!rest.isEmpty || onlyDirectories) = true then
        t.isDirectory { p with parts := p.parts ++ [n] }
      else t.existsAt { p with parts := p.parts ++ [n] }) with
    | error e => rfl
    | ok found =>
      cases found with
      | false => rfl
      | true =>
        cases h : select t onlyDirectories rest { p with parts := p.parts ++ [n] } <;>
          simp [bind, Except.bind, Except.map, gather, h, pure, Except.pure]
  | pattern pat =>
    rw [select]
    dsimp only [steps]
    cases directoryLocation t p with
    | none => rfl
    | some loc =>
      simp only [bind, Except.bind, List.mapM_map]
      rfl
  | directories =>
    rw [select]
    dsimp only [steps]
    cases directoryLocation t p with
    | none => rfl
    | some loc =>
      simp only [bind, Except.bind, List.mapM_map]
      rfl

theorem test_eq_true_iff {dirOnly : Bool} :
    (if dirOnly then t.isDirectory q else t.existsAt q) = .ok true ↔
      q.hasNul = false ∧ t.Has q ∧ (dirOnly = true → t.HasDirectory q) := by
  cases dirOnly with
  | true =>
    rw [if_pos rfl, isDirectory_eq_true]
    exact and_congr_right fun _ => ⟨fun h => ⟨h.has, fun _ => h⟩, fun h => h.2 rfl⟩
  | false =>
    rw [if_neg Bool.false_ne_true, existsAt_eq_true]
    simp

theorem mem_steps_name {dirOnly : Bool} {n : String} {qs : List Path}
    (h : steps t dirOnly p (.name n) = .ok qs) : q ∈ qs ↔ Next t dirOnly p q (.name n) := by
  rw [Next]
  rw [steps] at h
  cases hb : (if dirOnly then t.isDirectory (p.below [n]) else t.existsAt (p.below [n])) with
  | error e =>
    rw [hb] at h
    cases h
  | ok found =>
    rw [hb] at h
    obtain rfl := Except.ok.inj h
    cases found with
    | true =>
      have hq := test_eq_true_iff.1 hb
      constructor
      · intro hmem
        obtain rfl := List.mem_singleton.1 hmem
        exact ⟨rfl, hq⟩
      · rintro ⟨rfl, -⟩
        exact List.mem_singleton.2 rfl
    | false =>
      refine ⟨nofun, ?_⟩
      rintro ⟨rfl, hq⟩
      rw [test_eq_true_iff.2 hq] at hb
      cases hb

theorem not_hasDirectory (hp : directoryLocation t p = none) : ¬ t.HasDirectory p := by
  rintro ⟨loc, hloc⟩
  rw [directoryLocation_eq_some.2 hloc] at hp
  cases hp

theorem mem_steps_pattern (ht : t.WellFormed) {dirOnly : Bool} {pat : String} {qs : List Path}
    (h : steps t dirOnly p (.pattern pat) = .ok qs) :
    q ∈ qs ↔ Next t dirOnly p q (.pattern pat) := by
  obtain rfl := Except.ok.inj h
  rw [Next]
  cases hp : directoryLocation t p with
  | none => exact ⟨nofun, fun hnext => absurd hnext.1 (not_hasDirectory hp)⟩
  | some loc =>
    obtain ⟨hloc, hd⟩ := directoryLocation_eq_some.1 hp
    simp only [List.mem_map, List.mem_filter, Bool.and_eq_true, Bool.or_eq_true,
      Bool.not_eq_true']
    constructor
    · rintro ⟨n, ⟨hn, hmatch, hdir⟩, rfl⟩
      obtain ⟨e, he⟩ := ht.mem_names_iff.1 hn
      have hname : IsName n := ht.isName he (by simp)
      have hq := locate_below hloc hd hname
      refine ⟨⟨loc, hloc, hd⟩, n, rfl, hname, hmatch, ⟨_, e, hq, he⟩, ?_⟩
      rintro rfl
      exact ⟨_, hq, hdir.resolve_left nofun⟩
    · rintro ⟨-, n, rfl, hname, hmatch, ⟨loc', e, hloc', he⟩, hdir⟩
      have hq := locate_below hloc hd hname
      obtain rfl := Except.ok.inj (hq.symm.trans hloc')
      refine ⟨n, ⟨ht.mem_names_iff.2 ⟨e, he⟩, hmatch, ?_⟩, rfl⟩
      cases dirOnly with
      | false => exact .inl rfl
      | true =>
        obtain ⟨loc', hloc', hd'⟩ := hdir rfl
        obtain rfl := Except.ok.inj (hq.symm.trans hloc')
        exact .inr hd'

theorem mem_steps_directories (ht : t.WellFormed) {dirOnly : Bool} {qs : List Path}
    (h : steps t dirOnly p .directories = .ok qs) : q ∈ qs ↔ Next t dirOnly p q .directories := by
  obtain rfl := Except.ok.inj h
  rw [Next]
  cases hp : directoryLocation t p with
  | none => exact ⟨nofun, fun hnext => absurd hnext.1 (not_hasDirectory hp)⟩
  | some loc =>
    obtain ⟨hloc, hd⟩ := directoryLocation_eq_some.1 hp
    simp only [List.mem_map, mem_directoriesBelow_entries ht hd]
    constructor
    · rintro ⟨_, ⟨ns, rfl, hd'⟩, rfl⟩
      rw [List.drop_left]
      exact ⟨⟨loc, hloc, hd⟩, ns, rfl, fun n hn =>
        ht.isName (isDirectoryAt_iff.1 hd') (List.mem_append_right _ hn),
        ⟨_, ht.locate_below hloc hd', hd'⟩⟩
    · rintro ⟨-, ns, rfl, hns, loc', hloc', hd'⟩
      obtain rfl := eq_of_locate_below hloc (fun hdots => (hns _ hdots).1 rfl) hloc'
      exact ⟨loc ++ ns, ⟨ns, rfl, hd'⟩, by rw [List.drop_left]⟩

/-- What is found by a selector is where it goes. -/
theorem mem_steps (ht : t.WellFormed) {dirOnly : Bool} {qs : List Path}
    (h : steps t dirOnly p s = .ok qs) : q ∈ qs ↔ Next t dirOnly p q s := by
  cases s with
  | name n => exact mem_steps_name h
  | pattern pat => exact mem_steps_pattern ht h
  | directories => exact mem_steps_directories ht h

/-- Whether a selector fails to tell where it goes depends on the directories. -/
theorem exists_steps_iff {dirOnly : Bool} : (∃ qs, steps t dirOnly p s = .ok qs) ↔
    ∀ n, s = .name n →
      (p.below [n]).hasNul = true ∨ t.locate (p.below [n]) ≠ .error .nameTooLong := by
  cases s with
  | name n =>
    have htest : (∃ b, (if dirOnly then t.isDirectory (p.below [n]) else t.existsAt (p.below [n])) =
        .ok b) ↔ (p.below [n]).hasNul = true ∨ t.locate (p.below [n]) ≠ .error .nameTooLong := by
      cases dirOnly <;> exact exists_test_iff
    simp only [Selector.name.injEq, forall_eq', ← htest, steps]
    cases (if dirOnly then t.isDirectory (p.below [n]) else t.existsAt (p.below [n])) with
    | error e => simp [Except.map]
    | ok b => simp [Except.map]
  | pattern pat => exact iff_of_true ⟨_, rfl⟩ nofun
  | directories => exact iff_of_true ⟨_, rfl⟩ nofun

theorem select_cons_eq_ok {found : List Path} :
    select t onlyDirectories (s :: rest) p = .ok found ↔ ∃ qs,
      steps t (!rest.isEmpty || onlyDirectories) p s = .ok qs ∧ ∃ parts,
        List.Forall₂ (fun q part => select t onlyDirectories rest q = .ok part) qs parts ∧
          gather parts s = found := by
  rw [select_cons]
  cases steps t (!rest.isEmpty || onlyDirectories) p s with
  | error e => simp [bind, Except.bind]
  | ok qs =>
    simp only [← mapM_eq_ok]
    cases hparts : qs.mapM (select t onlyDirectories rest) with
    | error e => simp [bind, Except.bind, hparts]
    | ok parts => simp [bind, Except.bind, pure, Except.pure, hparts]

theorem mem_gather {parts : List (List Path)} : q ∈ gather parts s ↔ ∃ part ∈ parts, q ∈ part := by
  cases s <;> simp [gather]

/-- The paths that are found are those that selectors choose. -/
theorem mem_select (ht : t.WellFormed) {sels : List Selector} {found : List Path}
    (h : select t onlyDirectories sels p = .ok found) :
    q ∈ found ↔ Chosen t onlyDirectories sels p q := by
  induction sels generalizing p q found with
  | nil =>
    obtain rfl := Except.ok.inj h
    exact List.mem_singleton
  | cons s rest ih =>
    obtain ⟨qs, hqs, parts, hparts, rfl⟩ := select_cons_eq_ok.1 h
    rw [mem_gather, exists_mem_iff_of_forall₂ hparts fun q' part hpart => ih hpart]
    simp only [mem_steps ht hqs, Chosen]

theorem exists_select_iff (ht : t.WellFormed) :
    (∃ found, select t onlyDirectories (s :: rest) p = .ok found) ↔
      (∃ qs, steps t (!rest.isEmpty || onlyDirectories) p s = .ok qs) ∧
        ∀ q, Next t (!rest.isEmpty || onlyDirectories) p q s →
          ∃ found, select t onlyDirectories rest q = .ok found := by
  constructor
  · rintro ⟨found, h⟩
    obtain ⟨qs, hqs, parts, hparts, -⟩ := select_cons_eq_ok.1 h
    refine ⟨⟨qs, hqs⟩, fun q hq => ?_⟩
    exact exists_mapM_iff.1 ⟨parts, mapM_eq_ok.2 hparts⟩ q ((mem_steps ht hqs).2 hq)
  · rintro ⟨⟨qs, hqs⟩, h⟩
    obtain ⟨parts, hparts⟩ := exists_mapM_iff.2 fun q hq => h q ((mem_steps ht hqs).1 hq)
    exact ⟨_, select_cons_eq_ok.2 ⟨qs, hqs, parts, mapM_eq_ok.1 hparts, rfl⟩⟩

/-- Whether something is found, or the search fails, depends on the directories. -/
theorem exists_select_congr (ht : t.WellFormed) (hu : u.WellFormed) (hsame : t.SameDirectories u)
    (hfewer : ∀ q, u.Has q → t.Has q) {sels : List Selector} :
    (∃ found, select u onlyDirectories sels p = .ok found) ↔
      ∃ found, select t onlyDirectories sels p = .ok found := by
  induction sels generalizing p with
  | nil => exact iff_of_true ⟨_, rfl⟩ ⟨_, rfl⟩
  | cons s rest ih =>
    rw [exists_select_iff ht, exists_select_iff hu, exists_steps_iff, exists_steps_iff]
    simp only [Ne, hsame.tooLong_iff]
    refine and_congr_right fun _ => forall_congr' fun q => ?_
    cases rest with
    | nil => exact iff_of_true (fun _ => ⟨_, rfl⟩) fun _ => ⟨_, rfl⟩
    | cons s' rest =>
      rw [ih, next_iff hsame hfewer, and_iff_left_of_imp]
      exact fun hq => (hsame.hasDirectory_iff.2 hq.hasDirectory).has

end Glob

end ScriptBundle
