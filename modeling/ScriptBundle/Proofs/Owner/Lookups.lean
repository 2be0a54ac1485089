import ScriptBundle.Owner.Lookup
import ScriptBundle.Proofs.Owner.Linearization
import ScriptBundle.Proofs.Pairs
/-!
# Lookups of owners

A lookup keeps what it would describe again in the same way (`OwnerLookup.Sound`), each class once
and for ever at one place. So what it answers does not depend on what was looked up before
(`OwnerLookup.Answers.owner_eq`), and only the place tells that a class has been looked up before.
`lookups_transparent` says so for all lookups one after the other, and describes the answers by the
class that declares how another is rendered.
-/

namespace ScriptBundle

/-! ## Classes that are rendered -/

/-- The class itself declares how it is rendered. -/
def Hierarchy.Renders (h : Hierarchy) (c : Nat) : Prop :=
  ∃ d, h.classes[c]? = some d ∧ d.renders = true

/-- The class that decides how a class is rendered. -/
inductive Hierarchy.RendersBy (h : Hierarchy) (c : Nat) : Nat → Prop
  /-- It is the first in the linearization that declares this itself, -/
  | declared {before after : List Nat} {d : Nat}
      (linearization : h.linearizations[c]? = some (before ++ d :: after)) (renders : h.Renders d)
      (first : ∀ b ∈ before, ¬ h.Renders b) : RendersBy h c d
  /-- and the class itself if there is none. -/
  | undeclared {l : List Nat} (linearization : h.linearizations[c]? = some l)
      (none : ∀ b ∈ l, ¬ h.Renders b) : RendersBy h c c

namespace Hierarchy

variable {h : Hierarchy} {c d : Nat} {l : List Nat}

theorem rendersItself_iff : h.rendersItself c = true ↔ h.Renders c := by
  rw [rendersItself, Renders]
  cases h.classes[c]? <;> simp

theorem find?_rendersItself {before after : List Nat} (renders : h.Renders d)
    (first : ∀ b ∈ before, ¬ h.Renders b) :
    (before ++ d :: after).find? h.rendersItself = some d := by
  refine List.find?_eq_some_iff_append.2 ⟨rendersItself_iff.2 renders, before, after, rfl, ?_⟩
  intro b hb
  rw [Bool.not_eq_true', Bool.eq_false_iff]
  exact rendersItself_iff.not.2 (first b hb)

/-- There is one class that decides. -/
theorem rendersBy_iff (hl : h.linearizations[c]? = some l) :
    h.RendersBy c d ↔ h.renderingClass c = d := by
  rw [renderingClass, hl, Option.getD_some]
  constructor
  · rintro (⟨hl', renders, first⟩ | ⟨hl', hnone⟩)
    · obtain rfl := Option.some.inj (hl.symm.trans hl')
      rw [find?_rendersItself renders first, Option.getD_some]
    · obtain rfl := Option.some.inj (hl.symm.trans hl')
      have hfind : l.find? h.rendersItself = none :=
        List.find?_eq_none.2 fun b hb => rendersItself_iff.not.2 (hnone b hb)
      rw [hfind, Option.getD_none]
  · rintro rfl
    cases hfind : l.find? h.rendersItself with
    | none =>
      exact .undeclared hl fun b hb => rendersItself_iff.not.1 (List.find?_eq_none.1 hfind b hb)
    | some d =>
      obtain ⟨hd, before, after, rfl, hfirst⟩ := List.find?_eq_some_iff_append.1 hfind
      refine .declared hl (rendersItself_iff.1 hd) fun b hb => rendersItself_iff.not.1 ?_
      simpa using hfirst b hb

theorem RendersBy.renderingClass_eq (hd : h.RendersBy c d) : h.renderingClass c = d := by
  obtain ⟨l, hl⟩ : ∃ l, h.linearizations[c]? = some l := by
    cases hd with
    | declared hl | undeclared hl => exact ⟨_, hl⟩
  exact (rendersBy_iff hl).1 hd

/-- A class that decides about another decides about itself. -/
theorem RendersBy.self (hh : Linearized h.classes h.linearizations) (hd : h.RendersBy c d) :
    h.RendersBy d d := by
  cases hd with
  | undeclared hl hnone => exact .undeclared hl hnone
  | declared _ renders =>
    obtain ⟨decl, hdecl, -⟩ := id renders
    obtain ⟨hlt, -⟩ := List.getElem?_eq_some_iff.1 hdecl
    have hl := List.getElem?_eq_getElem (hh.length_eq ▸ hlt)
    obtain ⟨after, hcons⟩ := List.head?_eq_some_iff.1 (hh.isLinearization hl).head
    have hstart : h.linearizations[d]? = some ([] ++ d :: after) := hl.trans (congrArg some hcons)
    exact .declared hstart renders nofun

/-- It is the class itself, or one that the class inherits from. -/
theorem RendersBy.inherits (hh : Linearized h.classes h.linearizations) (hd : h.RendersBy c d) :
    Inherits h.classes c d := by
  cases hd with
  | undeclared => exact .refl
  | declared hl => exact ((hh.isLinearization hl).mem_iff d).1 (by simp)

end Hierarchy

/-! ## Descriptions -/

/-- What stands in the name of a module before the first dot. -/
def FirstSegment (moduleName s : String) : Prop :=
  '.' ∉ s.toList ∧ (moduleName = s ∨ ∃ rest, moduleName = s ++ "." ++ rest)

/-- The owner that a class of a module is described as. -/
structure OwnerInfo.Describes (o : OwnerInfo) (appPackage moduleName qualifiedName : String) :
    Prop where
  identity : o.identity = moduleName ++ "." ++ qualifiedName
  package : FirstSegment moduleName o.packageId
  /-- It is from a library if the module is in another package than the application. -/
  isFromLib : ∀ s, FirstSegment moduleName s → (o.isFromLib = true ↔ s ≠ appPackage)

theorem firstSegment_iff {moduleName s : String} : FirstSegment moduleName s ↔
    s = String.ofList (moduleName.toList.takeWhile (· != '.')) := by
  have hlist : s = String.ofList (moduleName.toList.takeWhile (· != '.')) ↔
      moduleName.toList.takeWhile (· != '.') = s.toList := by
    rw [← String.toList_inj, String.toList_ofList, eq_comm]
  rw [hlist, takeWhile_ne_eq_iff, FirstSegment]
  refine and_congr_right fun _ => ?_
  constructor
  · rintro (rfl | ⟨rest, rfl⟩)
    · exact ⟨[], by simp, by simp⟩
    · exact ⟨'.' :: rest.toList, by simp, by simp⟩
  · rintro ⟨rest, hmodule, hrest⟩
    cases rest with
    | nil => exact .inl (String.toList_inj.1 (by simpa using hmodule))
    | cons c rest =>
      obtain rfl := hrest c rfl
      exact .inr ⟨String.ofList rest, String.toList_inj.1 (by simpa using hmodule)⟩

theorem OwnerLookup.describes (appPackage moduleName qualifiedName : String) :
    (describe appPackage moduleName qualifiedName).Describes appPackage moduleName
      qualifiedName := by
  refine ⟨rfl, firstSegment_iff.2 rfl, fun s hs => ?_⟩
  rw [firstSegment_iff.1 hs]
  exact bne_iff_ne

/-! ## What is kept -/

/-- The class that a context gives. -/
def OwnerContext.class? : OwnerContext → Option ClassId
  | .cls id | .instanceOf id => some id
  | .nothing | .info _ => none

namespace OwnerLookup

/-- A lookup that has looked up nothing. -/
def fresh (appPackage : String) (h : Hierarchy) : OwnerLookup := ⟨appPackage, h, []⟩

/-- The answers to contexts that are looked up one after the other, and the lookup afterwards. -/
def lookupAll (l : OwnerLookup) :
    List OwnerContext → List (Except OwnerError OwnerAnswer) × OwnerLookup
  | [] => ([], l)
  | x :: xs =>
    let (a, l) := l.lookup x
    let (as, l) := lookupAll l xs
    (a :: as, l)

/-- What a lookup keeps are its descriptions of classes, one of each. -/
structure Sound (l : OwnerLookup) : Prop where
  nodup : (l.kept.map Prod.fst).Nodup
  described : ∀ e ∈ l.kept, e.2 = l.ownerOf e.1

/-- A lookup that goes on from another one. -/
structure Follows (l l' : OwnerLookup) : Prop where
  appPackage : l'.appPackage = l.appPackage
  hierarchy : l'.hierarchy = l.hierarchy
  kept : l.kept <+: l'.kept

/-- The owner that a context stands for, whatever is kept. -/
def ownerFor (l : OwnerLookup) : OwnerContext → Except OwnerError OwnerInfo
  | .nothing => .error .noComponent
  | .info owner => .ok owner
  | .cls id | .instanceOf id => .ok (l.ownerOf id)

/-- The answer of a lookup to a context, with the place where it is kept. -/
inductive Answers (l : OwnerLookup) : OwnerContext → Except OwnerError OwnerAnswer → Prop
  | nothing : Answers l .nothing (.error .noComponent)
  | info (owner : OwnerInfo) : Answers l (.info owner) (.ok ⟨owner, none⟩)
  | kept {x : OwnerContext} {id : ClassId} {i : Nat} (hx : x.class? = some id)
      (hi : l.kept[i]? = some (id, l.ownerOf id)) : Answers l x (.ok ⟨l.ownerOf id, some i⟩)

variable {l l' l'' : OwnerLookup} {x : OwnerContext} {xs : List OwnerContext} {id : ClassId}
  {a : Except OwnerError OwnerAnswer}

theorem Follows.refl (l : OwnerLookup) : Follows l l := ⟨rfl, rfl, List.prefix_refl _⟩

theorem Follows.trans (h : Follows l l') (h' : Follows l' l'') : Follows l l'' :=
  ⟨h'.appPackage.trans h.appPackage, h'.hierarchy.trans h.hierarchy, h.kept.trans h'.kept⟩

/-- The descriptions stay the same. -/
theorem Follows.ownerOf_eq (h : Follows l l') : l'.ownerOf = l.ownerOf := by
  funext id
  cases id <;> simp only [ownerOf, h.appPackage, h.hierarchy]

theorem Follows.ownerFor_eq (h : Follows l l') : l'.ownerFor = l.ownerFor := by
  funext x
  cases x <;> simp only [ownerFor, h.ownerOf_eq]

/-- An answer stays right. -/
theorem Answers.follows (h : l.Answers x a) (hl : Follows l l') : l'.Answers x a := by
  cases h with
  | nothing => exact .nothing
  | info o => exact .info o
  | kept hx hi =>
    obtain ⟨later, hlater⟩ := hl.kept
    rw [← hl.ownerOf_eq] at hi ⊢
    refine .kept hx ?_
    rw [← hlater, List.getElem?_append_left (List.getElem?_eq_some_iff.1 hi).1, hi]

theorem Answers.owner_eq (h : l.Answers x a) : a.map OwnerAnswer.owner = l.ownerFor x := by
  cases h with
  | nothing | info => rfl
  | kept hx =>
    cases x with
    | nothing | info => cases hx
    | cls | instanceOf =>
      obtain rfl := Option.some.inj hx
      rfl

/-- No class is kept at two places, and at no place two classes are. -/
theorem Sound.place_eq_iff (hs : l.Sound) {i i' : Nat} {id' : ClassId} {o o' : OwnerInfo}
    (hi : l.kept[i]? = some (id, o)) (hi' : l.kept[i']? = some (id', o')) : i = i' ↔ id = id' := by
  constructor
  · rintro rfl
    exact (Prod.mk.inj (Option.some.inj (hi.symm.trans hi'))).1
  · rintro rfl
    obtain ⟨hlt, -⟩ := List.getElem?_eq_some_iff.1 hi
    refine (List.getElem?_inj (by simpa using hlt) hs.nodup).1 ?_
    rw [List.getElem?_map, List.getElem?_map, hi, hi']
    rfl

section Declared

variable {c d : Nat} (hh : Linearized l.hierarchy.classes l.hierarchy.linearizations)

include hh

/-- A class is described as the one that decides how it is rendered, -/
theorem exists_describes (hc : c < l.hierarchy.classes.length) : ∃ d decl,
    l.hierarchy.RendersBy c d ∧ Inherits l.hierarchy.classes c d ∧
      l.hierarchy.classes[d]? = some decl ∧
      (l.ownerOf (.declared c)).Describes l.appPackage decl.moduleName decl.qualifiedName := by
  have hl := List.getElem?_eq_getElem (hh.length_eq ▸ hc)
  have hrenders := (Hierarchy.rendersBy_iff hl).2 rfl
  have hinherits := hrenders.inherits hh
  have hdecl := List.getElem?_eq_getElem ((hh.le_of_inherits hinherits).trans_lt hc)
  refine ⟨_, _, hrenders, hinherits, hdecl, ?_⟩
  rw [ownerOf, hdecl]
  exact describes ..

/-- and so is that one itself. -/
theorem ownerOf_eq_of_rendersBy (hd : l.hierarchy.RendersBy c d) :
    l.ownerOf (.declared c) = l.ownerOf (.declared d) := by
  rw [ownerOf, ownerOf, hd.renderingClass_eq, (hd.self hh).renderingClass_eq]

end Declared

/-! ## Lookups one after the other -/

/-- A class is described as ever, and its description kept. -/
theorem ofClass_spec (hs : l.Sound) (id : ClassId) :
    ∃ i l', l.ofClass id = (⟨l.ownerOf id, some i⟩, l') ∧ l'.Sound ∧ Follows l l' ∧
      l'.kept[i]? = some (id, l.ownerOf id) := by
  by_cases hid : id ∈ l.kept.map Prod.fst
  -- The class is kept: the place and the description are found separately, and are of one entry.
  · obtain ⟨⟨id, owner⟩, hmem, rfl⟩ := List.mem_map.1 hid
    have hlookup := lookup_of_mem hs.nodup hmem
    have hany : l.kept.any (·.1 = id) = true := List.any_eq_true.2 ⟨_, hmem, decide_eq_true rfl⟩
    obtain ⟨i, hi⟩ := Option.isSome_iff_exists.1 (List.findIdx?_isSome.trans hany)
    obtain ⟨hlt, hfst, -⟩ := List.findIdx?_eq_some_iff_getElem.1 hi
    have hfst := of_decide_eq_true hfst
    refine ⟨i, l, ?_, hs, .refl l, ?_⟩
    · rw [ofClass, hi, hlookup, ← hs.described _ hmem]
    · rw [List.getElem?_eq_getElem hlt]
      refine congrArg some (Prod.ext hfst ?_)
      rw [hs.described _ (List.getElem_mem hlt), hfst]
  · have hi : l.kept.findIdx? (·.1 = id) = none := List.findIdx?_eq_none_iff.2 fun e he =>
      decide_eq_false fun h => hid (h ▸ List.mem_map_of_mem he)
    have hfollows : Follows l { l with kept := l.kept ++ [(id, l.ownerOf id)] } :=
      ⟨rfl, rfl, List.prefix_append ..⟩
    refine ⟨l.kept.length, _, by rw [ofClass, hi], ⟨?_, fun e he => ?_⟩, hfollows, by simp⟩
    · simpa using hs.nodup.concat hid
    · rw [hfollows.ownerOf_eq]
      obtain he | he := List.mem_append.1 he
      · exact hs.described e he
      · rw [List.mem_singleton.1 he]

theorem lookup_spec (hs : l.Sound) (x : OwnerContext) : (l.lookup x).2.Sound ∧
    Follows l (l.lookup x).2 ∧ (l.lookup x).2.Answers x (l.lookup x).1 := by
  cases x with
  | nothing => exact ⟨hs, .refl l, .nothing⟩
  | info owner => exact ⟨hs, .refl l, .info owner⟩
  | cls id | instanceOf id =>
    obtain ⟨i, l', heq, hsound, hfollows, hi⟩ := ofClass_spec hs id
    rw [lookup, heq]
    refine ⟨hsound, hfollows, ?_⟩
    rw [← hfollows.ownerOf_eq] at hi ⊢
    exact .kept rfl hi

theorem lookupAll_spec (hs : l.Sound) (xs : List OwnerContext) : (l.lookupAll xs).2.Sound ∧
    Follows l (l.lookupAll xs).2 ∧
      List.Forall₂ (l.lookupAll xs).2.Answers xs (l.lookupAll xs).1 := by
  induction xs generalizing l with
  | nil => exact ⟨hs, .refl l, .nil⟩
  | cons x xs ih =>
    obtain ⟨hsound, hfollows, hanswers⟩ := lookup_spec hs x
    obtain ⟨hsound', hfollows', hanswers'⟩ := ih hsound
    exact ⟨hsound', hfollows.trans hfollows', .cons (hanswers.follows hfollows') hanswers'⟩

/-- The owner does not depend on what was looked up before. -/
theorem lookup_owner_eq (hs : l.Sound) (x : OwnerContext) :
    (l.lookup x).1.map OwnerAnswer.owner = l.ownerFor x := by
  obtain ⟨-, hfollows, hanswer⟩ := lookup_spec hs x
  rw [hanswer.owner_eq, hfollows.ownerFor_eq]

theorem lookupAll_owners_eq (hs : l.Sound) (xs : List OwnerContext) :
    (l.lookupAll xs).1.map (·.map OwnerAnswer.owner) = xs.map l.ownerFor := by
  obtain ⟨-, hfollows, hanswers⟩ := lookupAll_spec hs xs
  rw [← List.forall₂_eq_eq_eq, List.forall₂_map_left_iff, List.forall₂_map_right_iff,
    ← hfollows.ownerFor_eq]
  exact hanswers.flip.imp fun _ _ h => h.owner_eq

theorem sound_fresh (appPackage : String) (h : Hierarchy) : (fresh appPackage h).Sound :=
  ⟨.nil, nofun⟩

/-- A lookup that fails has nothing to look up, and leaves everything as it is. -/
theorem lookup_error {e : OwnerError} (h : (l.lookup x).1 = .error e) :
    x = .nothing ∧ (l.lookup x).2 = l := by
  cases x with
  | nothing => exact ⟨rfl, rfl⟩
  | info | cls | instanceOf => cases h

/-- So the others are answered as without it. -/
theorem lookupAll_eraseIdx {n : Nat} {e : OwnerError}
    (h : (l.lookupAll xs).1[n]? = some (.error e)) :
    l.lookupAll (xs.eraseIdx n) = ((l.lookupAll xs).1.eraseIdx n, (l.lookupAll xs).2) := by
  induction xs generalizing l n with
  | nil => cases h
  | cons x xs ih =>
    cases n with
    | zero =>
      obtain ⟨-, hl⟩ := lookup_error (Option.some.inj h)
      simp only [lookupAll, hl, List.eraseIdx_cons_zero]
    | succ n =>
      have hrest := @ih (l.lookup x).2 n h
      simp only [lookupAll, List.eraseIdx_cons_succ, hrest]

/-- The class that is looked up at a place among contexts. -/
def classAt? (xs : List OwnerContext) (n : Nat) : Option ClassId := xs[n]?.bind OwnerContext.class?

/-- What is looked up by a class is answered with what is kept for the class. -/
theorem exists_kept (hs : l.Sound) {n : Nat} (hid : classAt? xs n = some id) :
    ∃ i, (l.lookupAll xs).1[n]? = some (.ok ⟨l.ownerOf id, some i⟩) ∧
      (l.lookupAll xs).2.kept[i]? = some (id, l.ownerOf id) := by
  obtain ⟨x, hx, hclass⟩ := Option.bind_eq_some_iff.1 hid
  obtain ⟨-, hfollows, hanswers⟩ := lookupAll_spec hs xs
  obtain ⟨a, ha, hanswer⟩ := exists_getElem?_of_forall₂ hanswers hx
  cases hanswer with
  | nothing | info => cases hclass
  | @kept _ id' i hx' hi =>
    obtain rfl := Option.some.inj (hclass.symm.trans hx')
    rw [hfollows.ownerOf_eq] at ha hi
    exact ⟨i, ha, hi⟩

end OwnerLookup

/-- Answers to contexts that are looked up one after the other, for an application and a hierarchy
of classes. -/
structure Transparent (appPackage : String) (h : Hierarchy) (xs : List OwnerContext)
    (as : List (Except OwnerError OwnerAnswer)) : Prop where
  /-- Each owner is what a lookup answers that has looked up nothing else. -/
  fresh : as.map (·.map OwnerAnswer.owner) = xs.map fun x =>
    ((OwnerLookup.fresh appPackage h).lookup x).1.map OwnerAnswer.owner
  /-- Owners are given back as they are. -/
  passed : ∀ (n : Nat) owner, xs[n]? = some (.info owner) → as[n]? = some (.ok ⟨owner, none⟩)
  /-- A class and its instances have one description, and no two classes have the same. -/
  identical : ∀ (m n : Nat) id id', OwnerLookup.classAt? xs m = some id →
    OwnerLookup.classAt? xs n = some id' → ∃ o i o' i', as[m]? = some (.ok ⟨o, some i⟩) ∧
      as[n]? = some (.ok ⟨o', some i'⟩) ∧ (i = i' ↔ id = id')
  /-- A declared class is described as the one that decides how it is rendered, ... -/
  declared : ∀ (n : Nat) c, OwnerLookup.classAt? xs n = some (.declared c) →
    c < h.classes.length → ∃ (a : OwnerAnswer) (d : Nat) (decl : ClassDeclaration),
      as[n]? = some (.ok a) ∧ h.RendersBy c d ∧ Inherits h.classes c d ∧
      h.classes[d]? = some decl ∧
      a.owner.Describes appPackage decl.moduleName decl.qualifiedName
  /-- so its owner is equal to that of the class that it inherits this from. -/
  inherited : ∀ (m n : Nat) c d, OwnerLookup.classAt? xs m = some (.declared c) →
    OwnerLookup.classAt? xs n = some (.declared d) → h.RendersBy c d →
      ∃ a b : OwnerAnswer, as[m]? = some (.ok a) ∧ as[n]? = some (.ok b) ∧ a.owner = b.owner
  /-- A class that comes with the language is described as itself. -/
  builtin : ∀ (n : Nat) name, OwnerLookup.classAt? xs n = some (.builtin name) →
    ∃ a : OwnerAnswer, as[n]? = some (.ok a) ∧ a.owner.Describes appPackage "builtins" name
  /-- Only a lookup of nothing fails, -/
  failing : ∀ n : Nat, (∃ e, as[n]? = some (.error e)) ↔ xs[n]? = some .nothing
  /-- and all the others are answered as without it. -/
  unchanged : ∀ (n : Nat) e, as[n]? = some (.error e) →
    ((OwnerLookup.fresh appPackage h).lookupAll (xs.eraseIdx n)).1 = as.eraseIdx n

/-- **What is kept is not seen.** Lookups one after the other answer as if each was the first. -/
theorem lookups_transparent {classes : List ClassDeclaration} {h : Hierarchy}
    (hh : Hierarchy.ofClasses? classes = some h) (appPackage : String) (xs : List OwnerContext) :
    Transparent appPackage h xs ((OwnerLookup.fresh appPackage h).lookupAll xs).1 := by
  obtain ⟨ls, hls, rfl⟩ := Option.map_eq_some_iff.1 hh
  have hlinear : Linearized classes ls := linearizations?_eq_some.1 hls
  have hsound := OwnerLookup.sound_fresh appPackage ⟨classes, ls⟩
  obtain ⟨hsound', hfollows, hanswers⟩ := OwnerLookup.lookupAll_spec hsound xs
  have hclass := fun {n id} => @OwnerLookup.exists_kept _ xs id hsound n
  refine ⟨?fresh, ?passed, ?identical, ?declared, ?inherited, ?builtin, ?failing, ?unchanged⟩
  case fresh =>
    rw [OwnerLookup.lookupAll_owners_eq hsound]
    exact List.map_congr_left fun x _ => (OwnerLookup.lookup_owner_eq hsound x).symm
  case passed =>
    intro n owner hx
    obtain ⟨a, ha, hanswer⟩ := exists_getElem?_of_forall₂ hanswers hx
    cases hanswer with
    | info => exact ha
    | kept hx => cases hx
  case identical =>
    intro m n id id' hm hn
    obtain ⟨i, hi, hkept⟩ := hclass hm
    obtain ⟨i', hi', hkept'⟩ := hclass hn
    exact ⟨_, i, _, i', hi, hi', hsound'.place_eq_iff hkept hkept'⟩
  case declared =>
    intro n c hn hc
    obtain ⟨i, hi, -⟩ := hclass hn
    obtain ⟨d, decl, hrenders, hinherits, hdecl, hdescribes⟩ :=
      OwnerLookup.exists_describes (l := .fresh appPackage ⟨classes, ls⟩) hlinear hc
    exact ⟨_, d, decl, hi, hrenders, hinherits, hdecl, hdescribes⟩
  case inherited =>
    intro m n c d hm hn hd
    obtain ⟨i, hi, -⟩ := hclass hm
    obtain ⟨i', hi', -⟩ := hclass hn
    exact ⟨_, _, hi, hi', OwnerLookup.ownerOf_eq_of_rendersBy hlinear hd⟩
  case builtin =>
    intro n name hn
    obtain ⟨i, hi, -⟩ := hclass hn
    exact ⟨_, hi, OwnerLookup.describes ..⟩
  case failing =>
    refine fun n => ⟨fun ⟨e, he⟩ => ?_, fun hx => ?_⟩
    · obtain ⟨x, hx, hanswer⟩ := exists_getElem?_of_forall₂ hanswers.flip he
      cases hanswer
      exact hx
    · obtain ⟨a, ha, hanswer⟩ := exists_getElem?_of_forall₂ hanswers hx
      cases hanswer with
      | nothing => exact ⟨_, ha⟩
      | kept hx => cases hx
  case unchanged =>
    intro n e hn
    rw [OwnerLookup.lookupAll_eraseIdx hn]

/-- Lookups by a class that inherits along two ways, of which the second declares anew how it is
rendered. -/
theorem lookups_transparent_diamond :
    let classes : List ClassDeclaration := [⟨"lib.core", "Base", [], true⟩,
      ⟨"app.left", "Left", [0], false⟩, ⟨"app.right", "Right", [0], true⟩,
      ⟨"app", "Bottom", [1, 2], false⟩]
    let h : Hierarchy := ⟨classes, [[0], [1, 0], [2, 0], [3, 1, 2, 0]]⟩
    let xs : List OwnerContext := [.instanceOf (.declared 3), .nothing, .cls (.declared 2),
      .cls (.declared 3), .instanceOf (.declared 1), .cls (.builtin "int")]
    let right : OwnerInfo := ⟨"app.right.Right", "app", false⟩
    let as : List (Except OwnerError OwnerAnswer) := [.ok ⟨right, some 0⟩, .error .noComponent,
      .ok ⟨right, some 1⟩, .ok ⟨right, some 0⟩, .ok ⟨⟨"lib.core.Base", "lib", true⟩, some 2⟩,
      .ok ⟨⟨"builtins.int", "builtins", true⟩, some 3⟩]
    Hierarchy.ofClasses? classes = some h ∧ ((OwnerLookup.fresh "app" h).lookupAll xs).1 = as ∧
      Transparent "app" h xs as := by
  intro classes h xs right as
  have hlinear : linearizations? classes = some h.linearizations := by decide
  have hh : Hierarchy.ofClasses? classes = some h := by
    rw [Hierarchy.ofClasses?, hlinear]
    rfl
  have has : ((OwnerLookup.fresh "app" h).lookupAll xs).1 = as := by decide +kernel
  exact ⟨hh, has, has ▸ lookups_transparent hh "app" xs⟩

end ScriptBundle
