import ScriptBundle.Proofs.Json.Numbers
/-!
# Spellings of values

What the reader reads at the start of a text is a spelling of the value: its brackets are balanced,
and it is read as the same value before any other text.
-/

namespace ScriptBundle.Json

variable {cs rest pre t : List Char} {room : Nat}

/-! ## Texts -/

/-- The part of a text after its opening quote, up to the closing one. -/
structure SpellsText (t pre : List Char) : Prop where
  closes : ClosesQuote pre
  reads : ∀ rest, textBody? (pre ++ rest) = some (t, rest)

theorem hexValue?_eq_some {c : Char} {n : Nat} (h : hexValue? c = some n) : c ≠ '"' ∧ c ≠ '\\' := by
  constructor <;> rintro rfl <;> cases h

theorem hexNumber?_eq_some {n : Nat} (h : hexNumber? cs = some n) :
    ∀ c ∈ cs, c ≠ '"' ∧ c ≠ '\\' := by
  rw [hexNumber?] at h
  generalize 0 = m at h
  induction cs generalizing m with
  | nil => nofun
  | cons c cs ih =>
    rw [List.foldlM_cons] at h
    obtain ⟨m', hm', h⟩ := Option.bind_eq_some_iff.1 h
    obtain ⟨d, hd, -⟩ := Option.map_eq_some_iff.1 hm'
    exact List.forall_mem_cons.2 ⟨hexValue?_eq_some hd, ih m' h⟩

theorem spellsText_nil : SpellsText [] ['"'] := ⟨fun _ _ => rfl, fun _ => rfl⟩

/-- An escape of four hexadecimal digits. -/
theorem SpellsText.code {a b c d : Char} {n : Nat} (ht : SpellsText t pre)
    (hn : hexNumber? [a, b, c, d] = some n) (hhigh : ¬isHighSurrogate n)
    (hlow : ¬isLowSurrogate n) :
    SpellsText (Char.ofNat n :: t) ('\\' :: 'u' :: ([a, b, c, d] ++ pre)) where
  closes := (ht.closes.append (hexNumber?_eq_some hn)).escape 'u'
  reads rest := by
    show textBody? ('\\' :: 'u' :: a :: b :: c :: d :: (pre ++ rest)) = _
    rw [textBody?, hn]
    simp only [if_neg hhigh, if_neg hlow, ht.reads, Option.map_some]

/-- Two escapes that stand for one character. -/
theorem SpellsText.pair {a b c d e f g h : Char} {n m : Nat} (ht : SpellsText t pre)
    (hn : hexNumber? [a, b, c, d] = some n) (hm : hexNumber? [e, f, g, h] = some m)
    (hhigh : isHighSurrogate n) (hlow : isLowSurrogate m) :
    SpellsText (pairedChar n m :: t)
      ('\\' :: 'u' :: ([a, b, c, d] ++ '\\' :: 'u' :: ([e, f, g, h] ++ pre))) where
  closes := by
    have hsecond := (ht.closes.append (hexNumber?_eq_some hm)).escape 'u'
    exact (hsecond.append (hexNumber?_eq_some hn)).escape 'u'
  reads rest := by
    show textBody? ('\\' :: 'u' :: a :: b :: c :: d :: '\\' :: 'u' :: e :: f :: g :: h ::
      (pre ++ rest)) = _
    rw [textBody?, hn]
    simp only [if_pos hhigh, hm, if_pos hlow, ht.reads, Option.map_some]

/-- A backslash and one letter. -/
theorem SpellsText.letter {c e : Char} (ht : SpellsText t pre) (he : simpleEscape? c = some e) :
    SpellsText (e :: t) ('\\' :: c :: pre) where
  closes := ht.closes.escape c
  reads rest := by
    have hu : c ≠ 'u' := by rintro rfl; cases he
    show textBody? ('\\' :: c :: (pre ++ rest)) = _
    rw [textBody?, he]
    · simp only [ht.reads, Option.map_some]
    · rintro _ _ _ _ _ rfl
      exact absurd rfl hu

/-- A character that stands for itself. -/
theorem SpellsText.char {c : Char} (ht : SpellsText t pre) (hquote : c ≠ '"') (hback : c ≠ '\\')
    (hcontrol : ¬c.toNat < 32) : SpellsText (c :: t) (c :: pre) where
  closes := ht.closes.cons hquote hback
  reads rest := by
    show textBody? (c :: (pre ++ rest)) = _
    rw [textBody?]
    · simp only [hcontrol, hback, or_self, if_false, ht.reads, Option.map_some]
    · exact hquote
    · exact fun _ _ _ _ _ h => absurd h hback
    · exact fun _ _ h => absurd h hback

theorem exists_of_map_cons {c : Char} {s : Option (List Char × List Char)}
    (h : (s.map fun p => (c :: p.1, p.2)) = some (t, rest)) :
    ∃ t', t = c :: t' ∧ s = some (t', rest) := by
  obtain ⟨⟨t', rest'⟩, hs, h⟩ := Option.map_eq_some_iff.1 h
  cases h
  exact ⟨t', rfl, hs⟩

theorem exists_spelling_of_textBody? (h : textBody? cs = some (t, rest)) :
    ∃ pre, cs = pre ++ rest ∧ SpellsText t pre := by
  induction cs using textBody?.induct generalizing t with
  | case1 => cases h
  | case2 =>
    cases h
    exact ⟨['"'], rfl, spellsText_nil⟩
  | case3 a b c d cs hn => simp [textBody?, hn] at h
  | case4 a b c d n hn hhigh e f g h' r hm => simp [textBody?, hn, hhigh, hm] at h
  | case5 a b c d n hn hhigh e f g h' r m hm hlow ih =>
    simp only [textBody?, hn, if_pos hhigh, hm, if_pos hlow] at h
    obtain ⟨t, rfl, ht⟩ := exists_of_map_cons h
    obtain ⟨pre, rfl, hpre⟩ := ih ht
    exact ⟨_, rfl, hpre.pair hn hm hhigh hlow⟩
  | case6 a b c d n hn hhigh e f g h' r m hm hlow => simp [textBody?, hn, hhigh, hm, hlow] at h
  | case7 a b c d cs n hn hhigh hnone => simp [textBody?, hn, hhigh] at h
  | case8 a b c d cs n hn hhigh hlow => simp [textBody?, hn, hhigh, hlow] at h
  | case9 a b c d cs n hn hhigh hlow ih =>
    simp only [textBody?, hn, if_neg hhigh, if_neg hlow] at h
    obtain ⟨t, rfl, ht⟩ := exists_of_map_cons h
    obtain ⟨pre, rfl, hpre⟩ := ih ht
    exact ⟨_, rfl, hpre.code hn hhigh hlow⟩
  | case10 c cs hu he =>
    rw [textBody?, he] at h
    · cases h
    · exact hu
  | case11 c cs hu e he ih =>
    rw [textBody?, he] at h
    · obtain ⟨t, rfl, ht⟩ := exists_of_map_cons h
      obtain ⟨pre, rfl, hpre⟩ := ih ht
      exact ⟨_, rfl, hpre.letter he⟩
    · exact hu
  | case12 c cs hquote hu hback hbad =>
    rw [textBody?, if_pos hbad] at h
    · cases h
    · exact hquote
    · exact hu
    · exact hback
  | case13 c cs hquote hu hback hgood ih =>
    rw [textBody?, if_neg hgood] at h
    · obtain ⟨t, rfl, ht⟩ := exists_of_map_cons h
      obtain ⟨pre, rfl, hpre⟩ := ih ht
      rw [not_or] at hgood
      exact ⟨_, rfl, hpre.char hquote hgood.2 hgood.1⟩
    · exact hquote
    · exact hu
    · exact hback

/-! ## Blanks -/

theorem skipBlanks_cons {c : Char} (hc : isJsonBlank c = false) (cs : List Char) :
    skipBlanks (c :: cs) = c :: cs :=
  List.dropWhile_cons_of_neg (by simp [hc])

theorem skipBlanks_append {bs : List Char} (hbs : ∀ c ∈ bs, isJsonBlank c = true) (cs : List Char) :
    skipBlanks (bs ++ cs) = skipBlanks cs :=
  List.dropWhile_append_of_pos hbs

theorem exists_blanks (cs : List Char) :
    ∃ bs, cs = bs ++ skipBlanks cs ∧ ∀ c ∈ bs, isJsonBlank c = true :=
  ⟨cs.takeWhile isJsonBlank, List.takeWhile_append_dropWhile.symm,
    fun _ => List.mem_takeWhile_imp⟩

theorem endsNumber_blanks {bs : List Char} {c : Char} (hbs : ∀ c ∈ bs, isJsonBlank c = true)
    (hc : continuesNumber c = false) (cs : List Char) : EndsNumber (bs ++ c :: cs) := by
  cases bs with
  | nil =>
    rintro _ ⟨⟩
    exact hc
  | cons b bs =>
    have hb := hbs b List.mem_cons_self
    simp only [isJsonBlank, Bool.or_eq_true, beq_iff_eq] at hb
    rintro _ ⟨⟩
    rcases hb with ((rfl | rfl) | rfl) | rfl <;> rfl

/-! ## Values -/

/-- A text starts with a character that is no blank and closes nothing. -/
def StartsPart (cs : List Char) : Prop :=
  ∃ c rest, cs = c :: rest ∧ isJsonBlank c = false ∧ isClosing c = false

/-- A text is read as a value, before anything that cannot continue a number. -/
structure Spells (room : Nat) (v : Value) (pre : List Char) : Prop where
  starts : StartsPart pre
  balanced : Balanced pre
  closes : ∀ c cs, pre = c :: cs → isOpening c = true → Closes cs
  reads : ∀ fuel room' rest, pre.length ≤ fuel → room ≤ room' → EndsNumber rest →
    value? fuel room' (pre ++ rest) = some (v, rest)

section

variable {α : Type} {read : Nat → Nat → List Char → Option (List α × List Char)} {close : Char}
  {a : α} {as : List α}

/-- What stands between brackets, the closing one included, is read as a list. -/
structure SpellsInside (read : Nat → Nat → List Char → Option (List α × List Char)) (room : Nat)
    (as : List α) (pre : List Char) : Prop where
  starts : StartsPart pre
  closes : Closes pre
  reads : ∀ fuel room' rest, pre.length ≤ fuel → room ≤ room' →
    read fuel room' (pre ++ rest) = some (as, rest)

/-- A text is read as one part of a list between brackets. -/
structure SpellsPart (read : Nat → Nat → List Char → Option (List α × List Char)) (close : Char)
    (room : Nat) (a : α) (pre : List Char) : Prop where
  starts : StartsPart pre
  balanced : Balanced pre
  last : ∀ fuel room' rest, pre.length ≤ fuel → room ≤ room' →
    read (fuel + 1) room' (pre ++ close :: rest) = some ([a], rest)
  more : ∀ fuel room' rest, pre.length ≤ fuel → room ≤ room' →
    read (fuel + 1) room' (pre ++ ',' :: rest) =
      (read fuel room' (skipBlanks rest)).map fun p => (a :: p.1, p.2)

theorem StartsPart.append (h : StartsPart pre) (cs : List Char) : StartsPart (pre ++ cs) := by
  obtain ⟨c, rest, rfl, hc⟩ := h
  exact ⟨c, rest ++ cs, rfl, hc⟩

theorem StartsPart.skipBlanks {bs : List Char} (h : StartsPart pre)
    (hbs : ∀ c ∈ bs, isJsonBlank c = true) (rest : List Char) :
    skipBlanks (bs ++ pre ++ rest) = pre ++ rest := by
  obtain ⟨c, cs, rfl, hc, -⟩ := h
  rw [List.append_assoc, skipBlanks_append hbs]
  exact skipBlanks_cons hc _

theorem SpellsPart.single (h : SpellsPart read close room a pre) (hclose : isClosing close = true) :
    SpellsInside read room [a] (pre ++ [close]) where
  starts := h.starts.append _
  closes := h.balanced.append_closes (closes_cons hclose)
  reads fuel room' rest hfuel hroom := by
    rw [List.length_append, List.length_singleton] at hfuel
    obtain ⟨fuel, rfl⟩ := Nat.exists_eq_add_of_le' (Nat.le_of_add_left_le hfuel)
    rw [List.append_assoc]
    exact h.last fuel room' rest (by omega) hroom

theorem SpellsPart.cons {bs inner : List Char} (h : SpellsPart read close room a pre)
    (hbs : ∀ c ∈ bs, isJsonBlank c = true) (hinner : SpellsInside read room as inner) :
    SpellsInside read room (a :: as) (pre ++ ',' :: (bs ++ inner)) where
  starts := h.starts.append _
  closes := by
    have hcomma : Balanced (',' :: bs) :=
      balanced_of_plain (List.forall_mem_cons.2 ⟨rfl, fun c hc => isPlain_of_blank (hbs c hc)⟩)
    exact h.balanced.append_closes (hcomma.append_closes hinner.closes)
  reads fuel room' rest hfuel hroom := by
    simp only [List.length_append, List.length_cons] at hfuel
    obtain ⟨fuel, rfl⟩ : ∃ n, fuel = n + 1 := ⟨fuel - 1, by omega⟩
    rw [List.append_assoc, List.cons_append, h.more fuel room' _ (by omega) hroom,
      hinner.starts.skipBlanks hbs, hinner.reads fuel room' rest (by omega) hroom]
    rfl

end

/-- A value without quotes and brackets. -/
theorem spells_of_plain {v : Value} (hplain : ∀ c ∈ pre, isPlain c = true)
    (hstarts : StartsPart pre) (hreads : ∀ fuel room rest, EndsNumber rest →
      value? (fuel + 1) room (pre ++ rest) = some (v, rest)) : Spells room v pre where
  starts := hstarts
  balanced := balanced_of_plain hplain
  closes := by
    rintro c cs rfl hc
    have hnot := hplain c List.mem_cons_self
    simp [isPlain, hc] at hnot
  reads fuel room' rest hfuel _ hrest := by
    obtain ⟨c, cs, rfl, -⟩ := hstarts
    obtain ⟨fuel, rfl⟩ : ∃ n, fuel = n + 1 := ⟨fuel - 1, by rw [List.length_cons] at hfuel; omega⟩
    exact hreads fuel room' rest hrest

theorem value?_number {c : Char} (hc : c = '-' ∨ c.isDigit = true) (fuel room : Nat)
    (cs : List Char) : value? (fuel + 1) room (c :: cs) = number? (c :: cs) := by
  have hne : ∀ d, d ≠ '-' → d.isDigit = false → c ≠ d := by
    rintro d hminus hdigit rfl
    rcases hc with rfl | hc
    · exact hminus rfl
    · rw [hc] at hdigit
      cases hdigit
  rw [value?]
  all_goals
    rintro _ ⟨⟩
    exact hne _ (by decide) (by decide) rfl

theorem SpellsNumber.spells {v : Value} (h : SpellsNumber v pre) : Spells room v pre := by
  obtain ⟨c, cs, rfl, hc⟩ := h.starts
  have hplain : isPlain c = true := h.plain c List.mem_cons_self
  refine spells_of_plain h.plain ⟨c, cs, rfl, ?_, ?_⟩ fun fuel room rest hrest => ?_
  · rcases hc with rfl | hc
    · rfl
    · rw [Bool.eq_false_iff, isJsonBlank]
      rintro hblank
      simp only [Bool.or_eq_true, beq_iff_eq] at hblank
      rcases hblank with ((rfl | rfl) | rfl) | rfl <;> cases hc
  · simp only [isPlain, Bool.not_eq_true', Bool.or_eq_false_iff] at hplain
    exact hplain.2
  · rw [List.cons_append, value?_number hc]
    exact h.reads rest hrest

theorem SpellsText.spells (h : SpellsText t pre) :
    Spells room (.string (String.ofList t)) ('"' :: pre) where
  starts := ⟨'"', pre, rfl, rfl, rfl⟩
  balanced := h.closes.balanced
  closes := by rintro _ _ ⟨⟩ ⟨⟩
  reads fuel room' rest hfuel _ _ := by
    obtain ⟨fuel, rfl⟩ : ∃ n, fuel = n + 1 := ⟨fuel - 1, by rw [List.length_cons] at hfuel; omega⟩
    show (textBody? (pre ++ rest)).map _ = _
    rw [h.reads]
    rfl

/-! ## Arrays and objects -/

theorem value?_array_nil (h : skipBlanks cs = ']' :: rest) (fuel room : Nat) :
    value? (fuel + 1) room ('[' :: cs) = some (.array [], rest) := by
  rw [value?, h]
  rfl

theorem value?_object_nil (h : skipBlanks cs = '\x7d' :: rest) (fuel room : Nat) :
    value? (fuel + 1) room ('\x7b' :: cs) = some (.object [], rest) := by
  rw [value?, h]
  rfl

theorem value?_array (h : ∀ rest, skipBlanks cs ≠ ']' :: rest) (fuel room : Nat) :
    value? (fuel + 1) (room + 1) ('[' :: cs) =
      (items? fuel room (skipBlanks cs)).map fun p => (.array p.1, p.2) := by
  rw [value?]
  split
  · next heq => exact absurd heq (h _)
  · rfl

theorem value?_object (h : ∀ rest, skipBlanks cs ≠ '\x7d' :: rest) (fuel room : Nat) :
    value? (fuel + 1) (room + 1) ('\x7b' :: cs) =
      (members? fuel room (skipBlanks cs)).map fun p => (.object (lastValues p.1), p.2) := by
  rw [value?]
  split
  · next heq => exact absurd heq (h _)
  · rfl

theorem startsPart_of_opening {c : Char} (h : isOpening c = true) (cs : List Char) :
    StartsPart (c :: cs) := by
  refine ⟨c, cs, rfl, ?_⟩
  rw [isOpening, Bool.or_eq_true, beq_iff_eq, beq_iff_eq] at h
  rcases h with rfl | rfl <;> exact ⟨rfl, rfl⟩

theorem not_blank_of_closing {c : Char} (h : isClosing c = true) : isJsonBlank c = false := by
  rw [isClosing, Bool.or_eq_true, beq_iff_eq, beq_iff_eq] at h
  rcases h with rfl | rfl <;> rfl

/-- A value that is empty between its brackets. -/
theorem spells_of_empty {bs : List Char} {v : Value} {opening closing : Char}
    (hopening : isOpening opening = true) (hclosing : isClosing closing = true)
    (hbs : ∀ c ∈ bs, isJsonBlank c = true)
    (hreads : ∀ fuel room cs rest, skipBlanks cs = closing :: rest →
      value? (fuel + 1) room (opening :: cs) = some (v, rest)) :
    Spells room v (opening :: (bs ++ [closing])) where
  starts := startsPart_of_opening hopening _
  balanced := ((balanced_of_blank hbs).append_closes (closes_cons hclosing)).balanced hopening
  closes := by
    rintro _ _ ⟨⟩ -
    exact (balanced_of_blank hbs).append_closes (closes_cons hclosing)
  reads fuel room' rest hfuel _ _ := by
    obtain ⟨fuel, rfl⟩ : ∃ n, fuel = n + 1 := ⟨fuel - 1, by rw [List.length_cons] at hfuel; omega⟩
    rw [List.cons_append]
    refine hreads fuel room' _ rest ?_
    rw [List.append_assoc, skipBlanks_append hbs]
    exact skipBlanks_cons (not_blank_of_closing hclosing) rest

/-- A value that has something between its brackets. -/
theorem SpellsInside.spells {α : Type} {bs : List Char} {v : Value} {opening : Char}
    {read : Nat → Nat → List Char → Option (List α × List Char)} {as : List α}
    (h : SpellsInside read room as pre) (hopening : isOpening opening = true)
    (hbs : ∀ c ∈ bs, isJsonBlank c = true)
    (hreads : ∀ fuel room cs rest, StartsPart (skipBlanks cs) →
      read fuel room (skipBlanks cs) = some (as, rest) →
      value? (fuel + 1) (room + 1) (opening :: cs) = some (v, rest)) :
    Spells (room + 1) v (opening :: (bs ++ pre)) where
  starts := startsPart_of_opening hopening _
  balanced := ((balanced_of_blank hbs).append_closes h.closes).balanced hopening
  closes := by
    rintro _ _ ⟨⟩ -
    exact (balanced_of_blank hbs).append_closes h.closes
  reads fuel room' rest hfuel hroom _ := by
    simp only [List.length_append, List.length_cons] at hfuel
    obtain ⟨fuel, rfl⟩ : ∃ n, fuel = n + 1 := ⟨fuel - 1, by omega⟩
    obtain ⟨room', rfl⟩ : ∃ n, room' = n + 1 := ⟨room' - 1, by omega⟩
    have hskip := h.starts.skipBlanks hbs rest
    rw [List.cons_append]
    refine hreads fuel room' _ rest ?_ ?_
    · rw [hskip]
      exact h.starts.append rest
    · rw [hskip]
      exact h.reads fuel room' rest (by omega) (by omega)

theorem StartsPart.ne_closing {c : Char} (h : StartsPart cs) (hc : isClosing c = true) :
    ∀ rest, cs ≠ c :: rest := by
  rintro rest rfl
  obtain ⟨_, _, ⟨⟩, -, hnot⟩ := h
  rw [hc] at hnot
  cases hnot

theorem SpellsInside.array {bs : List Char} {vs : List Value} (h : SpellsInside items? room vs pre)
    (hbs : ∀ c ∈ bs, isJsonBlank c = true) :
    Spells (room + 1) (.array vs) ('[' :: (bs ++ pre)) := by
  refine h.spells rfl hbs fun fuel room cs rest hstarts hitems => ?_
  rw [value?_array (hstarts.ne_closing rfl), hitems]
  rfl

theorem SpellsInside.object {bs : List Char} {ms : List (String × Value)}
    (h : SpellsInside members? room ms pre) (hbs : ∀ c ∈ bs, isJsonBlank c = true) :
    Spells (room + 1) (.object (lastValues ms)) ('\x7b' :: (bs ++ pre)) := by
  refine h.spells rfl hbs fun fuel room cs rest hstarts hmembers => ?_
  rw [value?_object (hstarts.ne_closing rfl), hmembers]
  rfl

theorem Spells.item {v : Value} {bs : List Char} (h : Spells room v pre)
    (hbs : ∀ c ∈ bs, isJsonBlank c = true) : SpellsPart items? ']' room v (pre ++ bs) where
  starts := h.starts.append bs
  balanced := h.balanced.append (balanced_of_blank hbs)
  last fuel room' rest hfuel hroom := by
    rw [List.length_append] at hfuel
    have hskip : skipBlanks (bs ++ ']' :: rest) = ']' :: rest := skipBlanks_append hbs _
    rw [List.append_assoc, items?,
      h.reads fuel room' _ (by omega) hroom (endsNumber_blanks hbs rfl rest)]
    simp only [hskip]
  more fuel room' rest hfuel hroom := by
    rw [List.length_append] at hfuel
    have hskip : skipBlanks (bs ++ ',' :: rest) = ',' :: rest := skipBlanks_append hbs _
    rw [List.append_assoc, items?,
      h.reads fuel room' _ (by omega) hroom (endsNumber_blanks hbs rfl rest)]
    simp only [hskip]

/-- The text of a member, after the quote that opens its name. -/
def memberText (name beforeColon afterColon value after : List Char) : List Char :=
  name ++ (beforeColon ++ ':' :: (afterColon ++ (value ++ after)))

theorem members?_memberText {v : Value} {bs₁ bs₂ bs₃ name : List Char} (ht : SpellsText t name)
    (h : Spells room v pre) (hbs₁ : ∀ c ∈ bs₁, isJsonBlank c = true)
    (hbs₂ : ∀ c ∈ bs₂, isJsonBlank c = true) (hbs₃ : ∀ c ∈ bs₃, isJsonBlank c = true)
    {fuel room' : Nat} {d : Char} (hfuel : pre.length ≤ fuel) (hroom : room ≤ room')
    (hd : continuesNumber d = false) (hblank : isJsonBlank d = false) (rest : List Char) :
    members? (fuel + 1) room' ('"' :: memberText name bs₁ bs₂ pre bs₃ ++ d :: rest) =
      match d :: rest with
      | '\x7d' :: rest => some ([(String.ofList t, v)], rest)
      | ',' :: rest =>
        (members? fuel room' (skipBlanks rest)).map fun p => ((String.ofList t, v) :: p.1, p.2)
      | _ => none := by
  have hcolon : skipBlanks (bs₁ ++ ':' :: (bs₂ ++ (pre ++ (bs₃ ++ d :: rest)))) =
      ':' :: (bs₂ ++ (pre ++ (bs₃ ++ d :: rest))) := skipBlanks_append hbs₁ _
  have hvalue := h.starts.skipBlanks hbs₂ (bs₃ ++ d :: rest)
  have hafter : skipBlanks (bs₃ ++ d :: rest) = d :: rest := by
    rw [skipBlanks_append hbs₃]
    exact skipBlanks_cons hblank rest
  rw [List.append_assoc] at hvalue
  rw [memberText, List.cons_append, members?]
  simp only [List.append_assoc, List.cons_append, ht.reads, hcolon, hvalue,
    h.reads fuel room' _ hfuel hroom (endsNumber_blanks hbs₃ hd rest)]
  rewrite [hafter]
  rfl

theorem SpellsText.member {v : Value} {bs₁ bs₂ bs₃ name : List Char} (ht : SpellsText t name)
    (h : Spells room v pre) (hbs₁ : ∀ c ∈ bs₁, isJsonBlank c = true)
    (hbs₂ : ∀ c ∈ bs₂, isJsonBlank c = true) (hbs₃ : ∀ c ∈ bs₃, isJsonBlank c = true) :
    SpellsPart members? '\x7d' room (String.ofList t, v)
      ('"' :: memberText name bs₁ bs₂ pre bs₃) := by
  have hlength : pre.length ≤ ('"' :: memberText name bs₁ bs₂ pre bs₃).length := by
    simp only [memberText, List.length_cons, List.length_append]
    omega
  refine ⟨⟨'"', _, rfl, rfl, rfl⟩, ?_, fun fuel room' rest hfuel hroom => ?_,
    fun fuel room' rest hfuel hroom => ?_⟩
  · have hcolon : Balanced [':'] := balanced_of_plain (List.all_eq_true.1 (by decide))
    have hafter := hcolon.append
      ((balanced_of_blank hbs₂).append (h.balanced.append (balanced_of_blank hbs₃)))
    exact ht.closes.balanced.append ((balanced_of_blank hbs₁).append hafter)
  · exact members?_memberText ht h hbs₁ hbs₂ hbs₃ (hlength.trans hfuel) hroom rfl rfl rest
  · exact members?_memberText ht h hbs₁ hbs₂ hbs₃ (hlength.trans hfuel) hroom rfl rfl rest

/-! ## What is read -/

/-- What the readers of values, items and members read with some fuel. -/
structure ReadsSpellings (fuel : Nat) : Prop where
  value : ∀ {room : Nat} {cs rest : List Char} {v : Value},
    value? fuel room cs = some (v, rest) → ∃ pre, cs = pre ++ rest ∧ Spells room v pre
  items : ∀ {room : Nat} {cs rest : List Char} {vs : List Value},
    items? fuel room cs = some (vs, rest) →
      ∃ pre, cs = pre ++ rest ∧ SpellsInside items? room vs pre
  members : ∀ {room : Nat} {cs rest : List Char} {ms : List (String × Value)},
    members? fuel room cs = some (ms, rest) →
      ∃ pre, cs = pre ++ rest ∧ SpellsInside members? room ms pre

variable {fuel : Nat}

/-- A word is a spelling of what it is read as. -/
theorem exists_spelling_of_word {v w : Value} {more tail : List Char} {c : Char} (word : String)
    (hword : word.toList = c :: tail) (hblank : isJsonBlank c = false)
    (hall : word.toList.all isPlain = true)
    (hreads : ∀ fuel room rest, value? (fuel + 1) room (word.toList ++ rest) = some (w, rest))
    (h : value? (fuel + 1) room (word.toList ++ more) = some (v, rest)) :
    ∃ pre, word.toList ++ more = pre ++ rest ∧ Spells room v pre := by
  rw [hreads] at h
  cases h
  have hplain := List.all_eq_true.1 hall
  have hc : isPlain c = true := hplain c (by rw [hword]; exact List.mem_cons_self)
  simp only [isPlain, Bool.not_eq_true', Bool.or_eq_false_iff] at hc
  exact ⟨word.toList, rfl, spells_of_plain hplain ⟨c, tail, hword, hblank, hc.2⟩
    fun fuel room rest _ => hreads fuel room rest⟩

theorem exists_blanks_cons {c : Char} (h : skipBlanks cs = c :: rest) :
    ∃ bs, cs = bs ++ c :: rest ∧ ∀ c ∈ bs, isJsonBlank c = true := by
  obtain ⟨bs, hcs, hbs⟩ := exists_blanks cs
  rw [h] at hcs
  exact ⟨bs, hcs, hbs⟩

theorem ReadsSpellings.value_succ {v : Value} (ih : ReadsSpellings fuel)
    (h : value? (fuel + 1) room cs = some (v, rest)) :
    ∃ pre, cs = pre ++ rest ∧ Spells room v pre := by
  generalize hn : fuel + 1 = n at h
  fun_cases value? n room cs with
  | case1 => cases hn
  | case2 => exact exists_spelling_of_word "null" rfl rfl (by decide) (fun _ _ _ => rfl) h
  | case3 => exact exists_spelling_of_word "true" rfl rfl (by decide) (fun _ _ _ => rfl) h
  | case4 => exact exists_spelling_of_word "false" rfl rfl (by decide) (fun _ _ _ => rfl) h
  | case5 => exact exists_spelling_of_word "NaN" rfl rfl (by decide) (fun _ _ _ => rfl) h
  | case6 => exact exists_spelling_of_word "Infinity" rfl rfl (by decide) (fun _ _ _ => rfl) h
  | case7 =>
    rw [value?] at h
    obtain ⟨⟨t, r⟩, ht, h⟩ := Option.map_eq_some_iff.1 h
    cases h
    obtain ⟨pre, rfl, hpre⟩ := exists_spelling_of_textBody? ht
    exact ⟨'"' :: pre, rfl, hpre.spells⟩
  | case8 _ _ cs more hnil =>
    rw [value?_array_nil hnil] at h
    cases h
    obtain ⟨bs, rfl, hbs⟩ := exists_blanks_cons hnil
    exact ⟨'[' :: (bs ++ [']']), by simp, spells_of_empty rfl rfl hbs
      fun fuel room cs rest hnil => value?_array_nil hnil fuel room⟩
  | case9 _ cs hne =>
    rw [value?] at h
    split at h
    · next heq => exact absurd heq (hne _)
    · cases h
  | case10 _ cs _ hne =>
    cases hn
    rw [value?_array hne] at h
    obtain ⟨⟨vs, r⟩, hvs, h⟩ := Option.map_eq_some_iff.1 h
    cases h
    obtain ⟨pre, hcs, hpre⟩ := ih.items hvs
    obtain ⟨bs, hblanks, hbs⟩ := exists_blanks cs
    exact ⟨'[' :: (bs ++ pre), by rw [hblanks, hcs]; simp, hpre.array hbs⟩
  | case11 _ _ cs more hnil =>
    rw [value?_object_nil hnil] at h
    cases h
    obtain ⟨bs, rfl, hbs⟩ := exists_blanks_cons hnil
    exact ⟨'\x7b' :: (bs ++ ['\x7d']), by simp, spells_of_empty rfl rfl hbs
      fun fuel room cs rest hnil => value?_object_nil hnil fuel room⟩
  | case12 _ cs hne =>
    rw [value?] at h
    split at h
    · next heq => exact absurd heq (hne _)
    · cases h
  | case13 _ cs _ hne =>
    cases hn
    rw [value?_object hne] at h
    obtain ⟨⟨ms, r⟩, hms, h⟩ := Option.map_eq_some_iff.1 h
    cases h
    obtain ⟨pre, hcs, hpre⟩ := ih.members hms
    obtain ⟨bs, hblanks, hbs⟩ := exists_blanks cs
    exact ⟨'\x7b' :: (bs ++ pre), by rw [hblanks, hcs]; simp, hpre.object hbs⟩
  | case14 =>
    rw [value?] at h
    · obtain ⟨pre, rfl, hpre⟩ := exists_spelling_of_number? h
      exact ⟨pre, rfl, hpre.spells⟩
    all_goals assumption

theorem ReadsSpellings.items_succ {vs : List Value} (ih : ReadsSpellings fuel)
    (h : items? (fuel + 1) room cs = some (vs, rest)) :
    ∃ pre, cs = pre ++ rest ∧ SpellsInside items? room vs pre := by
  rw [items?] at h
  split at h
  · cases h
  next v r hv =>
  obtain ⟨pre, rfl, hpre⟩ := ih.value hv
  split at h
  · next hclose =>
    cases h
    obtain ⟨bs, rfl, hbs⟩ := exists_blanks_cons hclose
    exact ⟨pre ++ bs ++ [']'], by simp, (hpre.item hbs).single rfl⟩
  · next r hcomma =>
    obtain ⟨⟨vs, r'⟩, hvs, h⟩ := Option.map_eq_some_iff.1 h
    cases h
    obtain ⟨bs, rfl, hbs⟩ := exists_blanks_cons hcomma
    obtain ⟨inner, hr, hinner⟩ := ih.items hvs
    obtain ⟨bs', hblanks, hbs'⟩ := exists_blanks r
    exact ⟨pre ++ bs ++ ',' :: (bs' ++ inner), by rw [hblanks, hr]; simp,
      (hpre.item hbs).cons hbs' hinner⟩
  · cases h

/-- A member is read up to the character after it. -/
theorem ReadsSpellings.member {v : Value} {d : Char} {named valued : List Char}
    (ih : ReadsSpellings fuel) (ht : textBody? cs = some (t, named))
    (hcolon : skipBlanks named = ':' :: valued)
    (hv : value? fuel room (skipBlanks valued) = some (v, rest)) {more : List Char}
    (hafter : skipBlanks rest = d :: more) :
    ∃ pre, '"' :: cs = pre ++ d :: more ∧
      SpellsPart members? '\x7d' room (String.ofList t, v) pre := by
  obtain ⟨name, rfl, hname⟩ := exists_spelling_of_textBody? ht
  obtain ⟨bs₁, rfl, hbs₁⟩ := exists_blanks_cons hcolon
  obtain ⟨pre, hvalued, hpre⟩ := ih.value hv
  obtain ⟨bs₂, hblanks, hbs₂⟩ := exists_blanks valued
  obtain ⟨bs₃, rfl, hbs₃⟩ := exists_blanks_cons hafter
  refine ⟨_, ?_, hname.member hpre hbs₁ hbs₂ hbs₃⟩
  rw [hblanks, hvalued]
  simp [memberText]

theorem ReadsSpellings.members_succ {ms : List (String × Value)} (ih : ReadsSpellings fuel)
    (h : members? (fuel + 1) room cs = some (ms, rest)) :
    ∃ pre, cs = pre ++ rest ∧ SpellsInside members? room ms pre := by
  generalize hn : fuel + 1 = n at h
  fun_cases members? n room cs with
  | case1 => cases hn
  | case2 _ _ _ ht => simp [members?, ht] at h
  | case3 _ _ _ _ _ ht _ hcolon hv => simp [members?, ht, hcolon, hv] at h
  | case4 _ _ _ _ _ ht _ hcolon _ _ hv _ hclose =>
    cases hn
    obtain ⟨pre, hcs, hpre⟩ := ih.member ht hcolon hv hclose
    simp only [members?, ht, hcolon, hv, hclose] at h
    cases h
    exact ⟨pre ++ ['\x7d'], by rw [hcs]; simp, hpre.single rfl⟩
  | case5 _ _ _ _ _ ht _ hcolon _ _ hv more hcomma =>
    cases hn
    obtain ⟨pre, hcs, hpre⟩ := ih.member ht hcolon hv hcomma
    simp only [members?, ht, hcolon, hv, hcomma] at h
    obtain ⟨⟨ms, r⟩, hms, h⟩ := Option.map_eq_some_iff.1 h
    cases h
    obtain ⟨inner, hmore, hinner⟩ := ih.members hms
    obtain ⟨bs, hblanks, hbs⟩ := exists_blanks more
    refine ⟨pre ++ ',' :: (bs ++ inner), ?_, hpre.cons hbs hinner⟩
    rw [hcs, hblanks, hmore]
    simp
  | case6 _ _ _ _ _ ht _ hcolon _ _ hv => simp [members?, ht, hcolon, hv] at h
  | case7 _ _ _ _ _ ht => simp [members?, ht] at h
  | case8 =>
    rw [members?] at h
    · cases h
    · assumption

theorem readsSpellings (fuel : Nat) : ReadsSpellings fuel := by
  induction fuel with
  | zero => exact ⟨nofun, nofun, nofun⟩
  | succ fuel ih => exact ⟨ih.value_succ, ih.items_succ, ih.members_succ⟩

end ScriptBundle.Json
