import ScriptBundle.Proofs.Console.Emoji
import ScriptBundle.Proofs.Console.Tags
/-!
# Texts that are shown as they are

A text without tags, without a backslash before a bracket, without codes of emoji and without
hidden characters is `Plain`: these are the texts of which everything is shown
(`bareText?_eq_self_iff`), also if a tag follows that closes a style (`visible_eq_iff`), whatever
emoji and styles a console has.
-/

namespace ScriptBundle.Console

open Text

variable {c : Console} {cs run rest body tail : List Char} {n : Nat}

/-! ## Texts without tags -/

/-- No tag stands in a text. -/
def Untagged (cs : List Char) : Prop := ∀ rest, '[' :: rest <:+ cs → tagBody? rest = none

/-- All of a text is shown: no tag stands in it, no backslash that makes a bracket plain, no code of
an emoji, and no character that is not shown. -/
structure Plain (c : Console) (cs : List Char) : Prop where
  tags : Untagged cs
  escapes : ¬ ['\\', '['] <:+: cs
  emoji : c.NoEmoji cs
  visible : ∀ ch ∈ cs, isHidden ch = false

variable {open_ : List OpenStyle} {out : List Char} {ps : List Markup}

@[simp] theorem withoutTags?_plainPart (open_ : List OpenStyle) (cs : List Char)
    (ps : List Markup) : c.withoutTags? open_ (plainPart cs ++ ps) =
      (c.withoutTags? open_ ps).map (c.partText cs ++ ·) := by
  cases cs with
  | nil =>
    show c.withoutTags? open_ ps = (c.withoutTags? open_ ps).map fun out => [] ++ out
    simp
  | cons ch cs => rfl

theorem withoutTags?_end (open_ : List OpenStyle) (run : List Char) :
    c.withoutTags? open_ (partsAfter run []) = some (c.partText run.reverse) := by
  rw [partsAfter_nil, ← List.append_nil (plainPart _), withoutTags?_plainPart]
  exact congrArg some (List.append_nil _)

/-- Nothing is left of a tag but the styles that are open after it. -/
theorem withoutTags?_tag (h : tagAt? cs = some (0, body, rest)) (open_ : List OpenStyle)
    (run : List Char) : c.withoutTags? open_ (partsAfter run cs) =
      ((c.applyTag open_ body).bind fun open' => c.withoutTags? open' (partsAfter [] rest)).map
        (c.partText run.reverse ++ ·) := by
  have hparts : tagParts 0 body = [.tag body] := rfl
  rw [partsAfter_tag h, hparts, List.append_assoc, withoutTags?_plainPart, List.singleton_append,
    withoutTags?]
  cases c.applyTag open_ body <;> rfl

theorem withoutTags?_of_tag {open' : List OpenStyle} (h : tagAt? cs = some (0, body, rest))
    (happly : c.applyTag open_ body = some open') :
    c.withoutTags? open_ (partsAfter [] cs) = c.withoutTags? open' (partsAfter [] rest) := by
  rw [withoutTags?_tag h, happly]
  exact Option.map_id'

theorem visible_eq_self (h : ∀ ch ∈ cs, isHidden ch = false) : visible cs = cs :=
  List.filter_eq_self.2 fun ch hch => by simp [h ch hch]

variable {pre : List Char}

theorem partsAfter_text (hpre : isBareText pre = true) (run cs : List Char) :
    partsAfter run (pre ++ cs) = partsAfter (pre.reverse ++ run) cs := by
  have hchars := forall_mem_of_isBareText hpre
  clear hpre
  induction pre generalizing run with
  | nil => rfl
  | cons ch pre ih =>
    obtain ⟨⟨hbracket, hback, -⟩, hpre⟩ := List.forall_mem_cons.1 hchars
    rw [List.cons_append, partsAfter_cons (tagAt?_other hbracket hback _), ih _ hpre,
      List.reverse_cons, List.append_assoc]
    rfl

theorem unescape_append (hpre : '\\' ∉ pre) (cs : List Char) :
    unescape (pre ++ cs) = pre ++ unescape cs := by
  induction pre with
  | nil => rfl
  | cons ch pre ih =>
    rw [List.mem_cons, not_or] at hpre
    rw [List.cons_append, unescape, ih hpre.2, List.cons_append]
    rintro rest rfl
    exact absurd rfl hpre.1

theorem partText_append (hpre : isBareText pre = true) (cs : List Char) :
    c.partText (pre ++ cs) = pre ++ c.partText cs := by
  have hback : '\\' ∉ pre := fun hmem => (forall_mem_of_isBareText hpre _ hmem).2.1 rfl
  rw [partText, unescape_append hback, withEmoji_append hpre]
  rfl

/-- Bare text before a text is left of it, and does not matter for what else is. -/
theorem withoutTags?_append (hpre : isBareText pre = true) (open_ : List OpenStyle)
    (run cs : List Char) : c.withoutTags? open_ (partsAfter (run ++ pre.reverse) cs) =
      (c.withoutTags? open_ (partsAfter run cs)).map (pre ++ ·) := by
  have hrun : ∀ run : List Char, c.partText (run ++ pre.reverse).reverse =
      pre ++ c.partText run.reverse := fun run => by
    rw [List.reverse_append, List.reverse_reverse, partText_append hpre]
  induction cs generalizing run with
  | nil =>
    rw [withoutTags?_end, withoutTags?_end, hrun]
    rfl
  | cons ch cs ih =>
    cases htag : tagAt? (ch :: cs) with
    | none =>
      rw [partsAfter_cons htag, partsAfter_cons htag]
      exact ih (ch :: run)
    | some p =>
      obtain ⟨n, body, rest⟩ := p
      rw [partsAfter_tag htag, partsAfter_tag htag, List.append_assoc, List.append_assoc,
        withoutTags?_plainPart, withoutTags?_plainPart, hrun, Option.map_map]
      simp [Function.comp_def]

/-- Bare text is left of a text that starts with it. -/
theorem withoutTags?_text (hpre : isBareText pre = true) (open_ : List OpenStyle)
    (cs : List Char) : c.withoutTags? open_ (partsAfter [] (pre ++ cs)) =
      (c.withoutTags? open_ (partsAfter [] cs)).map (pre ++ ·) := by
  rw [partsAfter_text hpre, List.append_nil, ← List.nil_append pre.reverse,
    withoutTags?_append hpre]

theorem visible_append (cs ds : List Char) : visible (cs ++ ds) = visible cs ++ visible ds :=
  List.filter_append ..

theorem visible_of_isBareText (h : isBareText cs = true) : visible cs = cs :=
  visible_eq_self fun ch hch => (forall_mem_of_isBareText h ch hch).2.2

/-- What is left of a text is shown, where `pre` is left of what stands before it. -/
theorem bareText?_of_withoutTags? {s s' pre : String} (hpre : isBareText pre.toList = true)
    (h : c.withoutTags? [] (markup s'.toList) =
      (c.withoutTags? [] (markup s.toList)).map (pre.toList ++ ·)) :
    c.bareText? s' = (c.bareText? s).map (pre ++ ·) := by
  rw [bareText?, h, bareText?, Option.map_map, Option.map_map]
  refine congrFun (congrArg Option.map (funext fun cs => ?_)) _
  show String.ofList (visible (pre.toList ++ cs)) = pre ++ String.ofList (visible cs)
  rw [visible_append, visible_of_isBareText hpre, String.ofList_append, String.ofList_toList]

end ScriptBundle.Console
