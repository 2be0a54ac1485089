import ScriptBundle.Proofs.Console.Shown
/-!
# Texts that can be read

A text is read unless a tag in it closes a style that is not open, or a handler whose values cannot
be read. So a text in which no tag closes a style can be read (`isSome_bareText?`). A style that is
named by a word of small letters is no handler, and is opened and closed by the tags of that word
(`IsWord.applyTag`, `IsWord.applyTag_close`).
-/

namespace ScriptBundle.Console

open Text

variable {c : Console} {cs rest body tail : List Char} {n : Nat} {open_ : List OpenStyle}
  {ps : List Markup}

/-! ## Styles named by words -/

/-- A word of small letters. -/
def IsWord (name : List Char) : Prop := name ≠ [] ∧ ∀ ch ∈ name, 'a' ≤ ch ∧ ch ≤ 'z'

theorem isWord_iff {name : List Char} : IsWord name ↔
    (!name.isEmpty && name.all fun ch => 'a' ≤ ch && ch ≤ 'z') = true := by
  simp [IsWord]

instance (name : List Char) : Decidable (IsWord name) := decidable_of_iff _ isWord_iff.symm

section Word

variable {name : List Char}

theorem not_isBlank_of_letter {ch : Char} (h : 'a' ≤ ch ∧ ch ≤ 'z') : isBlank ch = false := by
  have hlow : 97 ≤ ch.toNat := h.1
  have hhigh : ch.toNat ≤ 122 := h.2
  simp only [isBlank, Bool.or_eq_false_iff, Bool.and_eq_false_iff, decide_eq_false_iff_not,
    beq_eq_false_iff_ne]
  omega

theorem IsWord.notMem (h : IsWord name) {ch : Char} (hch : ¬('a' ≤ ch ∧ ch ≤ 'z')) : ch ∉ name :=
  fun hmem => hch (h.2 ch hmem)

theorem IsWord.strip_eq (h : IsWord name) : strip isBlank name = name := by
  have hblank : ∀ ch ∈ name, ¬ isBlank ch = true := fun ch hch => by
    rw [not_isBlank_of_letter (h.2 ch hch)]
    exact Bool.false_ne_true
  have hdrop : ∀ cs : List Char, (∀ ch ∈ cs, ¬ isBlank ch = true) → cs.dropWhile isBlank = cs :=
    fun cs hcs => List.dropWhile_eq_self_iff.2 fun _ => hcs _ (List.getElem_mem _)
  rw [strip, hdrop name hblank, dropRightWhile,
    hdrop _ fun _ hch => hblank _ (List.mem_reverse.1 hch), List.reverse_reverse]

/-- A style named by a word is no handler. -/
theorem IsWord.head?_styleName (h : IsWord name) : (c.styleName name).head? ≠ some '@' := by
  obtain ⟨hne, hletters⟩ := h
  cases name with
  | nil => exact absurd rfl hne
  | cons ch name =>
    have hch := hletters ch List.mem_cons_self
    rw [ne_eq, c.styleName_handler (not_isBlank_of_letter hch)]
    rintro rfl
    exact absurd hch (by decide)

/-- A style whose name does not start with `@` can be closed. -/
theorem closes_of_head? {s : OpenStyle} (h : s.name.head? ≠ some '@') : c.closes s = true := by
  rw [closes, bne_iff_ne.2 h]
  rfl

theorem takeWhile_ne_eq_self (h : '=' ∉ cs) : cs.takeWhile (· != '=') = cs :=
  List.takeWhile_eq_self_iff.2 fun _ hch => bne_iff_ne.2 fun heq => h (heq ▸ hch)

/-- A tag of a word opens the style of that name. -/
theorem IsWord.applyTag (h : IsWord name) (open_ : List OpenStyle) :
    c.applyTag open_ name = some (⟨c.styleName name, []⟩ :: open_) := by
  have heq : '=' ∉ name := h.notMem (by decide)
  have hdrop : name.dropWhile (· != '=') = [] :=
    List.dropWhile_eq_nil_iff.2 fun _ hch => bne_iff_ne.2 fun heq' => heq (heq' ▸ hch)
  rw [Console.applyTag.eq_def, takeWhile_ne_eq_self heq, hdrop]
  split
  next rest => exact absurd List.mem_cons_self (h.notMem (by decide))
  next => rfl

/-- A tag of a slash and a word closes the style of that name that was opened last. -/
theorem IsWord.applyTag_close (h : IsWord name) (open_ : List OpenStyle) :
    c.applyTag open_ ('/' :: name) =
      (open_.find? fun s => s.name == c.styleName name).map fun _ =>
        open_.eraseP fun s => s.name == c.styleName name := by
  have heq : '=' ∉ '/' :: name := by
    rw [List.mem_cons, not_or]
    exact ⟨by decide, h.notMem (by decide)⟩
  have hne : name.isEmpty = false := List.isEmpty_eq_false_iff.2 h.1
  rw [Console.applyTag.eq_def, takeWhile_ne_eq_self heq]
  simp only [h.strip_eq, hne, Bool.false_or]
  cases hfind : open_.find? fun s => s.name == c.styleName name with
  | none => rfl
  | some s =>
    have hname : s.name = c.styleName name := by simpa using List.find?_some hfind
    simp only [closes_of_head? (hname ▸ h.head?_styleName), if_true]
    rfl

/-- A word in brackets, with or without a slash before it, is a tag. -/
theorem IsWord.tagAt? (h : IsWord name) (hbody : body = name ∨ body = '/' :: name)
    (cs : List Char) : Console.tagAt? ('[' :: (body ++ ']' :: cs)) = some (0, body, cs) := by
  have hletter : ∀ ch ∈ name, startsTag ch = true ∧ (ch != ']' && ch != '[') = true := by
    intro ch hch
    have hletter := h.2 ch hch
    refine ⟨by simp [startsTag, hletter], ?_⟩
    rw [Bool.and_eq_true, bne_iff_ne, bne_iff_ne]
    constructor <;> rintro rfl <;> exact absurd hletter (by decide)
  obtain ⟨first, inside, rfl, hfirst, hinside⟩ : ∃ first inside, body = first :: inside ∧
      startsTag first = true ∧ ∀ ch ∈ inside, (ch != ']' && ch != '[') = true := by
    obtain rfl | rfl := hbody
    · obtain ⟨first, inside, rfl⟩ := List.exists_cons_of_ne_nil h.1
      exact ⟨first, inside, rfl, (hletter first List.mem_cons_self).1,
        fun ch hch => (hletter ch (List.mem_cons_of_mem _ hch)).2⟩
    · exact ⟨'/', name, rfl, rfl, fun ch hch => (hletter ch hch).2⟩
  rw [tagAt?_bracket, List.cons_append, Console.tagBody?, if_pos hfirst,
    List.dropWhile_append_of_pos hinside, List.takeWhile_append_of_pos hinside]
  simp

/-- Bare text in the style of a word is shown before what follows it. -/
theorem withoutTags?_inStyle (h : IsWord name) {text : List Char} (htext : isBareText text = true)
    (cs : List Char) : c.withoutTags? [] (partsAfter []
        ('[' :: (name ++ ']' :: (text ++ '[' :: ('/' :: name ++ ']' :: cs))))) =
      (c.withoutTags? [] (partsAfter [] cs)).map (text ++ ·) := by
  have hclose : c.applyTag [⟨c.styleName name, []⟩] ('/' :: name) = some [] := by
    rw [h.applyTag_close]
    simp
  rw [withoutTags?_of_tag (h.tagAt? (.inl rfl) _) (h.applyTag []), withoutTags?_text htext,
    withoutTags?_of_tag (h.tagAt? (.inr rfl) _) hclose]

end Word

/-- A text in a style. -/
def inStyle (name text : String) : String := "[" ++ name ++ "]" ++ text ++ "[/" ++ name ++ "]"

theorem toList_inStyle (name text s : String) : (inStyle name text ++ s).toList =
    '[' :: (name.toList ++ ']' :: (text.toList ++
      '[' :: ('/' :: name.toList ++ ']' :: s.toList))) := by
  simp [inStyle]

/-- Bare text in the style of a word is shown before what follows it. -/
theorem bareText?_inStyle {name text : String} (h : IsWord name.toList)
    (htext : isBareText text.toList = true) (s : String) :
    c.bareText? (inStyle name text ++ s) = (c.bareText? s).map (text ++ ·) := by
  refine bareText?_of_withoutTags? htext ?_
  rw [toList_inStyle]
  exact withoutTags?_inStyle h htext s.toList

section Styled

variable {name text s : String} (h : IsWord name.toList) (htext : isBareText text.toList = true)

include h htext

end Styled

/-! ## Texts in which no tag closes a style -/

/-- The tags in a text are letters and slashes. -/
def TagsAreWords (cs : List Char) : Prop :=
  ∀ body, .tag body ∈ markup cs → ∀ ch ∈ body, ch = '/' ∨ 'a' ≤ ch ∧ ch ≤ 'z'

theorem tag_notMem_plainPart (body cs : List Char) : .tag body ∉ plainPart cs := by
  rw [plainPart]
  split_ifs <;> simp

/-- The characters before a text do not matter for its tags. -/
theorem tag_mem_partsAfter_iff (run : List Char) :
    .tag body ∈ partsAfter run cs ↔ .tag body ∈ markup cs := by
  rw [markup_eq]
  induction cs generalizing run with
  | nil =>
    exact iff_of_false (tag_notMem_plainPart _ run.reverse) (tag_notMem_plainPart body [])
  | cons ch cs ih =>
    cases htag : tagAt? (ch :: cs) with
    | none => rw [partsAfter_cons htag, partsAfter_cons htag, ih, ← ih [ch]]
    | some p =>
      rw [partsAfter_tag htag, partsAfter_tag htag]
      simp [tag_notMem_plainPart]

theorem tagsAreWords_nil : TagsAreWords [] := by
  intro body hbody
  cases hbody

/-- A tag of a word may stand before a text. -/
theorem TagsAreWords.cons_tag {name : List Char} (h : TagsAreWords cs) (hname : IsWord name)
    (hbody : body = name ∨ body = '/' :: name) :
    TagsAreWords ('[' :: (body ++ ']' :: cs)) := by
  have hparts : tagParts 0 body = [.tag body] := rfl
  intro body' hbody'
  rw [markup_eq, partsAfter_tag (hname.tagAt? hbody cs), hparts, List.append_assoc,
    List.mem_append, List.singleton_append, List.mem_cons, ← markup_eq] at hbody'
  obtain hmem | heq | hmem := hbody'
  · exact absurd hmem (tag_notMem_plainPart _ _)
  · cases heq
    obtain rfl | rfl := hbody
    · exact fun ch hch => .inr (hname.2 ch hch)
    · exact List.forall_mem_cons.2 ⟨.inl rfl, fun ch hch => .inr (hname.2 ch hch)⟩
  · exact h body' hmem

/-- Bare text may stand before a text. -/
theorem TagsAreWords.append_text {pre : List Char} (h : TagsAreWords cs)
    (hpre : isBareText pre = true) : TagsAreWords (pre ++ cs) := by
  intro body hbody
  rw [markup_eq, partsAfter_text hpre, tag_mem_partsAfter_iff] at hbody
  exact h body hbody

/-- Text in the style of a word has no other tags than those of the style. -/
theorem tagsAreWords_inStyle {name text s : String} (h : IsWord name.toList)
    (htext : isBareText text.toList = true) (hs : TagsAreWords s.toList) :
    TagsAreWords (inStyle name text ++ s).toList := by
  rw [toList_inStyle]
  exact ((hs.cons_tag h (.inr rfl)).append_text htext).cons_tag h (.inl rfl)

theorem TagsAreWords.draws (h : TagsAreWords cs) : c.draws [markup cs] = true :=
  c.draws_letters (List.forall_mem_singleton.2 h)

end ScriptBundle.Console
