import ScriptBundle.Extraction
import ScriptBundle.Proofs.Lists
/-!
# Streams that are put together

The declaration at the start of a stream is not changed by what follows its closing instruction
(`declaration?_append_of_closed`), and an opened component inside it is not missed
(`findingAt_insert`). So a stream can be cut wherever its script components before the cut are
closed before it (`findings_append`, `extracted_append`), and a marker that is inserted anywhere
adds what it leads to itself and nothing else (`exists_findings_insert`).
-/

namespace ScriptBundle

/-- The instruction opens one of the script components. -/
def Instruction.OpensScript (names : List String) (i : Instruction) : Prop :=
  i.kind = .openComponent ∧ ∃ n ∈ names, i.typeName = some n

theorem Instruction.opensScript_iff {names : List String} {i : Instruction} :
    i.opensScript names = true ↔ i.OpensScript names := by
  rw [opensScript, OpensScript, Bool.and_eq_true, decide_eq_true_iff]
  cases i.typeName <;> simp

variable {names : List String} {owner : String} {xs ys : List Instruction}

/-! ## The declaration at the start -/

theorem declaration?_eq_some {stream declaration : List Instruction} :
    declaration? stream = some declaration ↔ ∃ close after,
      stream = declaration ++ close :: after ∧ close.kind = .closeComponent ∧
        ∀ i ∈ declaration, i.kind ≠ .closeComponent := by
  have hcut : ∀ {d : List Instruction} {close : Instruction} (after : List Instruction),
      close.kind = .closeComponent → (∀ i ∈ d, i.kind ≠ .closeComponent) →
        declaration? (d ++ close :: after) = some d := by
    intro d close after hclose hopen
    rw [declaration?, if_pos (by simp [hclose]),
      List.takeWhile_append_of_pos fun i hi => by simpa using hopen i hi,
      List.takeWhile_cons_of_neg (by simp [hclose]), List.append_nil]
  constructor
  · intro h
    have hnot : ¬ ∀ i ∈ stream, i.kind ≠ .closeComponent := fun hall => by
      rw [declaration?, if_neg (by simpa using hall)] at h
      cases h
    obtain ⟨d, close, after, rfl, hopen, hclose⟩ := exists_first_not hnot
    replace hclose := of_not_not hclose
    obtain rfl : d = declaration := Option.some.inj ((hcut after hclose hopen).symm.trans h)
    exact ⟨close, after, rfl, hclose, hopen⟩
  · rintro ⟨close, after, rfl, hclose, hopen⟩
    exact hcut after hclose hopen

/-- A stream is cut in one way only at the first instruction that closes a component. -/
theorem eq_of_first_close {d d' after after' : List Instruction} {close close' : Instruction}
    (h : d ++ close :: after = d' ++ close' :: after') (hclose : close.kind = .closeComponent)
    (hclose' : close'.kind = .closeComponent) (hopen : ∀ i ∈ d, i.kind ≠ .closeComponent)
    (hopen' : ∀ i ∈ d', i.kind ≠ .closeComponent) : d = d' ∧ close = close' ∧ after = after' := by
  have hd := declaration?_eq_some.2 ⟨close, after, rfl, hclose, hopen⟩
  rw [h, declaration?_eq_some.2 ⟨close', after', rfl, hclose', hopen'⟩] at hd
  obtain rfl : d' = d := Option.some.inj hd
  exact ⟨rfl, List.cons.inj (List.append_cancel_left h)⟩

theorem declaration?_eq_none {stream : List Instruction} :
    declaration? stream = none ↔ ∀ i ∈ stream, i.kind ≠ .closeComponent := by
  simp [declaration?]

/-- A declaration that is closed is not changed by what follows. -/
theorem declaration?_append_of_closed (h : ∃ i ∈ xs, i.kind = .closeComponent)
    (ys : List Instruction) : declaration? (xs ++ ys) = declaration? xs := by
  cases hd : declaration? xs with
  | none =>
    obtain ⟨i, hi, hclose⟩ := h
    exact absurd hclose (declaration?_eq_none.1 hd i hi)
  | some d =>
    obtain ⟨close, after, rfl, hclose, hopen⟩ := declaration?_eq_some.1 hd
    exact declaration?_eq_some.2 ⟨close, after ++ ys, by simp, hclose, hopen⟩

/-- One that is not is the longer by what stands before. -/
theorem declaration?_append_of_open (h : ∀ i ∈ xs, i.kind ≠ .closeComponent)
    (ys : List Instruction) : declaration? (xs ++ ys) = (declaration? ys).map (xs ++ ·) := by
  cases hd : declaration? ys with
  | none =>
    rw [Option.map_none, declaration?_eq_none, List.forall_mem_append]
    exact ⟨h, declaration?_eq_none.1 hd⟩
  | some d =>
    obtain ⟨close, after, rfl, hclose, hopen⟩ := declaration?_eq_some.1 hd
    rw [Option.map_some]
    exact declaration?_eq_some.2
      ⟨close, after, by simp, hclose, List.forall_mem_append.2 ⟨h, hopen⟩⟩

/-- What closes nothing changes no declaration either. -/
theorem declaration?_append
    (h : (∃ i ∈ xs, i.kind = .closeComponent) ∨ ∀ i ∈ ys, i.kind ≠ .closeComponent) :
    declaration? (xs ++ ys) = declaration? xs := by
  by_cases hclosed : ∃ i ∈ xs, i.kind = .closeComponent
  · exact declaration?_append_of_closed hclosed ys
  · have hopen : ∀ i ∈ xs, i.kind ≠ .closeComponent := by simpa using hclosed
    rw [declaration?_append_of_open hopen, declaration?_eq_none.2 (h.resolve_left hclosed),
      declaration?_eq_none.2 hopen, Option.map_none]

/-! ## Opened components inside

An instruction that opens a component neither adds a text nor sets a parameter nor closes anything.
-/

section Insertion

variable {i : Instruction} (hi : i.kind = .openComponent) (before after : List Instruction)
include hi

theorem content?_insert : content? (before ++ i :: after) = content? (before ++ after) := by
  have hnone : i.contentText? = none := by
    simp [Instruction.contentText?, hi, InstructionKind.isContent]
  simp [content?, List.findSome?_append, hnone]

theorem literalParameter?_insert (name : String) :
    literalParameter? (before ++ i :: after) name = literalParameter? (before ++ after) name := by
  simp [literalParameter?, List.find?_append, hi]

theorem fragmentOf_insert (owner body : String) :
    fragmentOf owner body (before ++ i :: after) = fragmentOf owner body (before ++ after) := by
  simp only [fragmentOf, boolParameter, textParameter, parameter,
    literalParameter?_insert hi before after]

/-- Nobody misses it in a declaration that stands around it. -/
theorem findingAt_insert (owner : String) (marker : Instruction) :
    findingAt owner marker (before ++ i :: after) = findingAt owner marker (before ++ after) := by
  by_cases hclosed : ∃ j ∈ before, j.kind = .closeComponent
  · rw [findingAt, findingAt, declaration?_append_of_closed hclosed,
      declaration?_append_of_closed hclosed]
  · have hopen : ∀ j ∈ before, j.kind ≠ .closeComponent := by simpa using hclosed
    have hone : ∀ j ∈ [i], j.kind ≠ .closeComponent := by simp [hi]
    have hi' : declaration? (i :: after) = (declaration? after).map (i :: ·) :=
      declaration?_append_of_open hone after
    rw [findingAt, findingAt, declaration?_append_of_open hopen, declaration?_append_of_open hopen,
      hi']
    cases declaration? after with
    | none => rfl
    | some d =>
      simp only [Option.map_some, content?_insert hi before d, fragmentOf_insert hi before d]

end Insertion

/-! ## Streams in parts -/

/-- A stream is read part by part, if the script components of the first part are closed in it, or
nothing is closed in the second. -/
theorem findings_append (h : ∀ before marker after, xs = before ++ marker :: after →
    marker.OpensScript names →
      (∃ i ∈ after, i.kind = .closeComponent) ∨ ∀ i ∈ ys, i.kind ≠ .closeComponent) :
    findings names owner (xs ++ ys) = findings names owner xs ++ findings names owner ys := by
  induction xs with
  | nil => rfl
  | cons i xs ih =>
    have hrest := ih fun before marker after hxs => h (i :: before) marker after (by rw [hxs]; rfl)
    rw [List.cons_append, findings, findings, hrest]
    split_ifs with hopens
    · have hclosed : (∃ j ∈ i :: xs, j.kind = .closeComponent) ∨
          ∀ j ∈ ys, j.kind ≠ .closeComponent :=
        (h [] i xs rfl (Instruction.opensScript_iff.1 hopens)).imp_left fun ⟨j, hj, hclose⟩ =>
          ⟨j, List.mem_cons_of_mem i hj, hclose⟩
      have hd : declaration? (i :: (xs ++ ys)) = declaration? (i :: xs) :=
        declaration?_append hclosed
      rw [findingAt, hd, findingAt, List.cons_append]
    · rfl

section Closed

variable {close : Instruction} (hclose : close.kind = .closeComponent)
include hclose

/-- Whatever is open is closed by a closing instruction at the end. -/
theorem closed_of_concat {before marker after} (h : xs ++ [close] = before ++ marker :: after)
    (hopens : marker.OpensScript names) : ∃ i ∈ after, i.kind = .closeComponent := by
  obtain rfl | ⟨after, i, rfl⟩ := after.eq_nil_or_concat'
  · obtain ⟨-, hmarker⟩ := List.append_inj' h rfl
    rw [← (List.cons.inj hmarker).1] at hopens
    exact absurd (hclose.symm.trans hopens.1) (by simp)
  · rw [← List.cons_append, ← List.append_assoc] at h
    obtain ⟨-, hlast⟩ := List.append_inj' h rfl
    exact ⟨i, by simp, (List.cons.inj hlast).1 ▸ hclose⟩

/-- What follows a closed component is read as if nothing stood before it, and what stands before it
as if nothing followed. -/
theorem fragments_of_closed (name : String) (scope : Option String)
    (before rest : List Instruction) :
    Component.fragments names ⟨name, scope, before ++ close :: rest⟩ =
      Component.fragments names ⟨name, scope, before ++ [close]⟩ ++
        Component.fragments names ⟨name, scope, rest⟩ := by
  have hsplit : before ++ close :: rest = (before ++ [close]) ++ rest := by simp
  simp only [Component.fragments, Component.findings, Component.ownerId]
  rw [hsplit, findings_append fun _ _ _ h hopens => .inl (closed_of_concat hclose h hopens),
    List.filterMap_append]

end Closed

/-- An instruction that opens a component is read on its own, wherever it stands. -/
theorem exists_findings_insert {i : Instruction} (hi : i.kind = .openComponent)
    (before after : List Instruction) : ∃ earlier,
      findings names owner (before ++ after) = earlier ++ findings names owner after ∧
      findings names owner (before ++ i :: after) =
        earlier ++ findings names owner (i :: after) := by
  induction before with
  | nil => exact ⟨[], rfl, rfl⟩
  | cons j before ih =>
    obtain ⟨earlier, hwithout, hwith⟩ := ih
    have hfinding : findingAt owner j (j :: (before ++ i :: after)) =
        findingAt owner j (j :: (before ++ after)) :=
      findingAt_insert hi (j :: before) after owner j
    rw [List.cons_append, List.cons_append, findings, findings, hwithout, hwith, hfinding]
    split_ifs
    · exact ⟨_ :: earlier, rfl, rfl⟩
    · exact ⟨earlier, rfl, rfl⟩

/-! ## Extraction from the parts -/

/-- **Extraction is compositional.** Where all script components of the first part are closed in it,
the fragments of a stream are those of its parts, and so are the log records. The second part is any
stream. -/
theorem extracted_append (names : List String) (name : String) (scope : Option String)
    {xs ys : List Instruction}
    (h : ∀ before marker after, xs = before ++ marker :: after → marker.OpensScript names →
      ∃ i ∈ after, i.kind = .closeComponent) :
    Component.fragments names ⟨name, scope, xs ++ ys⟩ =
        Component.fragments names ⟨name, scope, xs⟩ ++
          Component.fragments names ⟨name, scope, ys⟩ ∧
      Component.records names ⟨name, scope, xs ++ ys⟩ =
        Component.records names ⟨name, scope, xs⟩ ++ Component.records names ⟨name, scope, ys⟩ := by
  have hfindings : Component.findings names ⟨name, scope, xs ++ ys⟩ =
      Component.findings names ⟨name, scope, xs⟩ ++ Component.findings names ⟨name, scope, ys⟩ :=
    findings_append fun before marker after hxs hopens => .inl (h before marker after hxs hopens)
  constructor
  · simp only [Component.fragments, hfindings, List.filterMap_append]
  · simp only [Component.records, hfindings, List.flatMap_append]
    rfl

/-- The first part has a parameter that cannot be read, and the second an unclosed declaration. -/
theorem extracted_append_unclosed :
    let marker : Instruction := ⟨.openComponent, 0, some "Script", .null, true⟩
    let flag : Instruction := ⟨.addComponentParameter, 1, some "GlobalBundle", .int 1, true⟩
    let text : Instruction := ⟨.addContent, 2, none, .string "f()", true⟩
    let close : Instruction := ⟨.closeComponent, 3, none, .null, true⟩
    let xs := [marker, flag, text, close]
    let ys := [text, marker]
    (∀ before i after, xs = before ++ i :: after → i.OpensScript ["Script"] →
      ∃ j ∈ after, j.kind = .closeComponent) ∧
    Component.fragments ["Script"] ⟨"Widget", none, xs ++ ys⟩ =
      Component.fragments ["Script"] ⟨"Widget", none, xs⟩ ++
        Component.fragments ["Script"] ⟨"Widget", none, ys⟩ ∧
    Component.records ["Script"] ⟨"Widget", none, xs ++ ys⟩ =
      Component.records ["Script"] ⟨"Widget", none, xs⟩ ++
        Component.records ["Script"] ⟨"Widget", none, ys⟩ := by
  intro marker flag text close xs ys
  have hclosed : ∀ before i after, xs = before ++ i :: after → i.OpensScript ["Script"] →
      ∃ j ∈ after, j.kind = .closeComponent := fun before i after hxs hopens =>
    @closed_of_concat _ [marker, flag, text] close rfl before i after hxs hopens
  exact ⟨hclosed, extracted_append ["Script"] "Widget" none hclosed⟩

end ScriptBundle
