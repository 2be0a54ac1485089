import ScriptBundle.Proofs.Declarations
/-!
# Declarations that share a text

A script declaration ends with the first instruction that closes a component, whatever is opened
before that. So two declarations are apart, or the same instruction ends both (`apart_or_within`),
and then they have the same text (`TakesText.eq_iff`). `texts_shared` says of which fragments that
is so, and when a marker that is inserted changes what is extracted; in `text_taken_twice` a marker
that nobody closes takes the text of the declaration after it.
-/

namespace ScriptBundle

namespace Declaration

variable {names : List String} {stream : List Instruction} {d e : Declaration names stream}
  {k l : Nat}

/-- The place of the instruction that closes a declaration. -/
def closePlace (d : Declaration names stream) : Nat := d.place + 1 + d.inside.length

/-- The last literal text in a declaration is added by the instruction at a place. -/
def TakesText (d : Declaration names stream) (k : Nat) : Prop :=
  ∃ lead text, LastText d.inside lead text ∧ k = d.place + 1 + lead.length

theorem TakesText.lt (h : d.TakesText k) : d.place < k ∧ k < d.closePlace := by
  obtain ⟨lead, text, ⟨i, trail, hinside, -, -⟩, rfl⟩ := h
  have hlength : d.inside.length = lead.length + (trail.length + 1) := by
    rw [hinside, List.length_append, List.length_cons]
  rw [closePlace]
  omega

theorem TakesText.unique (h : d.TakesText k) (h' : d.TakesText l) : k = l := by
  obtain ⟨lead, text, hlast, rfl⟩ := h
  obtain ⟨lead', text', hlast', rfl⟩ := h'
  rw [(hlast.unique hlast').1]

theorem HasScript.takesText (h : d.HasScript) : ∃ k, d.TakesText k := by
  obtain ⟨lead, text, hlast, -⟩ := h
  exact ⟨_, lead, text, hlast, rfl⟩

/-- Of two declarations the first is closed before the second is opened, or what is inside the
second is the end of what is inside the first. -/
theorem apart_or_within (h : d.place < e.place) :
    d.closePlace < e.place ∨ ∃ lead, e.before = d.before ++ d.marker :: lead ∧
      d.inside = lead ++ e.marker :: e.inside := by
  obtain ⟨m, hbefore, hm⟩ | ⟨m, hbefore, -⟩ :=
    List.append_eq_append_iff.1 (d.split.trans e.split.symm)
  · cases m with
    | nil => simp [place, hbefore] at h
    | cons i lead =>
      obtain ⟨rfl, hrest⟩ := List.cons.inj hm
      obtain ⟨n, rfl, hn⟩ | ⟨n, hinside, hn⟩ := List.append_eq_append_iff.1 hrest
      · cases n with
        | nil =>
          -- The instruction that closes the one would open the other.
          have hkind := e.opens.1
          rw [← (List.cons.inj hn).1, d.closes] at hkind
          cases hkind
        | cons j n =>
          left
          simp only [closePlace, place, hbefore, List.length_append, List.length_cons]
          omega
      · cases n with
        | nil =>
          have hkind := e.opens.1
          rw [(List.cons.inj hn).1, d.closes] at hkind
          cases hkind
        | cons j n =>
          obtain ⟨rfl, hrest⟩ := List.cons.inj hn
          have hopen : ∀ i ∈ n, i.kind ≠ .closeComponent := fun i hi =>
            d.stillOpen i (hinside ▸ List.mem_append_right _ (List.mem_cons_of_mem _ hi))
          obtain ⟨rfl, -, -⟩ := eq_of_first_close hrest e.closes d.closes e.stillOpen hopen
          exact .inr ⟨lead, hbefore, hinside⟩
  · have hlength := congrArg List.length hbefore
    rw [List.length_append] at hlength
    simp only [place] at h
    omega

/-- Two declarations of which one is opened first have the same text exactly if the same instruction
closes them. -/
theorem TakesText.eq_iff (h : d.place < e.place) (hd : d.TakesText k) (he : e.TakesText l) :
    k = l ↔ d.closePlace = e.closePlace := by
  obtain hapart | ⟨lead, hbefore, hinside⟩ := apart_or_within h
  · have hdlt := hd.lt
    have helt := he.lt
    exact iff_of_false (by omega) (by omega)
  · have hplace : e.place = d.place + 1 + lead.length := by
      simp only [place, hbefore, List.length_append, List.length_cons]
      omega
    refine iff_of_true ?_ ?_
    · obtain ⟨elead, text, ⟨i, trail, heinside, hi, htrail⟩, rfl⟩ := he
      refine hd.unique ⟨lead ++ e.marker :: elead, text, ⟨i, trail, ?_, hi, htrail⟩, ?_⟩
      · rw [hinside, heinside, List.append_assoc, List.cons_append]
      · rw [hplace, List.length_append, List.length_cons]
        omega
    · rw [closePlace, closePlace, hplace, hinside, List.length_append, List.length_cons]
      omega

/-- Declarations with scripts share their text exactly if the same instruction closes them. -/
theorem HasScript.shared_iff (hd : d.HasScript) (he : e.HasScript) :
    (∃ k, d.TakesText k ∧ e.TakesText k) ↔ d.closePlace = e.closePlace := by
  obtain ⟨k, hk⟩ := hd.takesText
  obtain ⟨l, hl⟩ := he.takesText
  have hshared : (∃ n, d.TakesText n ∧ e.TakesText n) ↔ k = l := by
    constructor
    · rintro ⟨n, hdn, hen⟩
      rw [hk.unique hdn, hl.unique hen]
    · rintro rfl
      exact ⟨k, hk, hl⟩
  rw [hshared]
  rcases lt_trichotomy d.place e.place with hlt | heq | hlt
  · exact hk.eq_iff hlt hl
  · obtain rfl := eq_of_place heq
    exact iff_of_true (hk.unique hl) rfl
  · rw [eq_comm, hl.eq_iff hlt hk, eq_comm]

end Declaration

/-- Which fragments of a component have the same script, and which markers add one. -/
structure SharesTexts (names : List String) (c : Component)
    (ds : List (Declaration names c.instructions)) : Prop where
  /-- The fragments are those of the declarations `ds`, -/
  extracts : Extracts names c.ownerId ds (c.fragments names)
  /-- and two of these take their script from the same instruction exactly if the same instruction
  closes them. -/
  shared : ∀ d ∈ ds, ∀ e ∈ ds,
    (∃ k, d.TakesText k ∧ e.TakesText k) ↔ d.closePlace = e.closePlace
  /-- So if each has a closing instruction of its own then no script is extracted twice. -/
  once : (∀ d ∈ ds, ∀ e ∈ ds, d.closePlace = e.closePlace → d = e) →
    ds.Pairwise fun d e => ¬ ∃ k, d.TakesText k ∧ e.TakesText k
  /-- A marker that is inserted, wherever that may be, changes what is extracted exactly if there is
  a script between it and what is closed next. -/
  inserted : ∀ before after marker, c.instructions = before ++ after → marker.OpensScript names →
    (Component.fragments names ⟨c.name, c.scope, before ++ marker :: after⟩ = c.fragments names ↔
      ∀ d : Declaration names (before ++ marker :: after), d.place = before.length → ¬ d.HasScript)

/-- **Scripts are extracted once, if they are declared once.** Fragments have their scripts from
different instructions, unless the same instruction closes the declarations of both, and a marker
after which nothing is closed, or nothing but blanks up to there, is skipped without changing any
other fragment. -/
theorem texts_shared (names : List String) (c : Component) :
    ∃ ds : List (Declaration names c.instructions), SharesTexts names c ds := by
  obtain ⟨ds, hds⟩ := exists_extracts names c.ownerId c.instructions
  have hshared : ∀ d ∈ ds, ∀ e ∈ ds,
      (∃ k, d.TakesText k ∧ e.TakesText k) ↔ d.closePlace = e.closePlace := fun d hd e he =>
    ((hds.mem_iff d).1 hd).shared_iff ((hds.mem_iff e).1 he)
  refine ⟨ds, hds, hshared, fun hown => ?once, ?inserted⟩
  case once =>
    refine List.Pairwise.imp_of_mem (fun {d e} hd he hlt htext => ?_) hds.ordered
    rw [hown d hd e he ((hshared d hd e he).1 htext)] at hlt
    exact lt_irrefl _ hlt
  case inserted =>
    intro before after marker hc hopens
    rw [Component.fragments, Component.fragments, Component.findings, Component.findings, hc]
    exact streamFragments_insert_iff names _ hopens.1 before after

/-- A marker that is not closed itself is ended by what closes the declaration after it, and the
script of that is extracted for both. -/
theorem text_taken_twice :
    let marker : Int → Instruction := fun n => ⟨.openComponent, n, some "Script", .null, true⟩
    let text : Instruction := ⟨.addMarkupContent, 2, none, .string "run()", true⟩
    let close : Instruction := ⟨.closeComponent, 3, none, .null, true⟩
    let f : Fragment := ⟨"Widget", "run()", false, some "index", none, true, none, false, false⟩
    Component.fragments ["Script"] ⟨"Widget", none, [marker 1, text, close]⟩ = [f] ∧
      Component.fragments ["Script"] ⟨"Widget", none, [marker 0, marker 1, text, close]⟩ =
        [f, f] := by
  decide

end ScriptBundle
