import ScriptBundle.Extraction
import ScriptBundle.Proofs.Checked
import ScriptBundle.Proofs.Pairs
import ScriptBundle.Site.Parameters
/-!
# Two readings of parameters

The parameters of a script declaration are read twice: from its instructions when scripts are
extracted, where whatever cannot be read has its default, and from named values when a site is set
up, where it is refused. If the values are those of the declaration, `Declares`, and are not
refused, then both readings come to the same (`Declares.reads`).
-/

namespace ScriptBundle

open Validation

/-! ## Named values -/

theorem assign_of_notMem {α β : Type} [DecidableEq α] {key : α} {value : β} {pairs : List (α × β)}
    (h : key ∉ pairs.map Prod.fst) : assign key value pairs = pairs ++ [(key, value)] := by
  induction pairs with
  | nil => rfl
  | cons p pairs ih =>
    obtain ⟨hne, h⟩ := not_or.1 (List.mem_cons.not.1 h)
    rw [assign, if_neg (Ne.symm hne), ih h, List.cons_append]

/-- Pairs with each key once are left as they are. -/
theorem lastValues_of_nodup {α β : Type} [DecidableEq α] {pairs : List (α × β)}
    (h : (pairs.map Prod.fst).Nodup) : lastValues pairs = pairs := by
  suffices ∀ acc : List (α × β), ((acc ++ pairs).map Prod.fst).Nodup →
      pairs.foldl (fun acc p => assign p.1 p.2 acc) acc = acc ++ pairs from this [] h
  clear h
  induction pairs with
  | nil => simp
  | cons p pairs ih =>
    intro acc h
    have hp : p.1 ∉ acc.map Prod.fst := fun hmem => by
      rw [List.map_append, List.map_cons] at h
      exact List.disjoint_of_nodup_append h hmem List.mem_cons_self
    rw [List.foldl_cons, assign_of_notMem hp, ih]
    · rw [List.append_assoc, List.singleton_append]
    · rwa [List.append_assoc, List.singleton_append]

/-! ## Values that are not refused -/

theorem withDefault_eq_ok {α : Type} {name : String} {default a : α} {read : Value → Checked α}
    {pairs : List (String × Value)} (h : withDefault name default read pairs = .ok a) :
    pairs.lookup name = none ∧ a = default ∨
      ∃ v, pairs.lookup name = some v ∧ read v = .ok a := by
  rw [withDefault] at h
  cases hl : pairs.lookup name with
  | none =>
    rw [hl] at h
    cases h
    exact .inl ⟨rfl, rfl⟩
  | some v =>
    rw [hl] at h
    dsimp only at h
    cases hr : read v with
    | ok a' =>
      rw [hr] at h
      cases h
      exact .inr ⟨v, rfl, hr⟩
    | error is =>
      rw [hr] at h
      cases h

/-- What named values describe, if they are not refused. -/
structure Describes (pairs : List (String × Value)) (p : SiteParameters) : Prop where
  globalBundle : withDefault "GlobalBundle" false strictBool pairs = .ok p.globalBundle
  bundleName :
    withDefault "BundleName" (some defaultBundleName) optionalString pairs = .ok p.bundleName
  scriptFile : withDefault "ScriptFile" none optionalString pairs = .ok p.scriptFile
  asClass : withDefault "AsClass" true strictBool pairs = .ok p.asClass
  className : withDefault "ClassName" none optionalString pairs = .ok p.className
  addToGlobal : withDefault "AddToGlobal" false strictBool pairs = .ok p.addToGlobal
  addAsInstance : withDefault "AddAsInstance" false strictBool pairs = .ok p.addAsInstance

theorem describes_of_decode {pairs : List (String × Value)} {p : SiteParameters}
    (h : decodeParameters pairs = .ok p) : Describes pairs p := by
  obtain ⟨_, _, h₁, -, rfl⟩ := Checked.both_eq_ok_iff.1 h
  obtain ⟨_, _, h₂, addAsInstance, rfl⟩ := Checked.both_eq_ok_iff.1 h₁
  obtain ⟨_, _, h₃, addToGlobal, rfl⟩ := Checked.both_eq_ok_iff.1 h₂
  obtain ⟨_, _, h₄, className, rfl⟩ := Checked.both_eq_ok_iff.1 h₃
  obtain ⟨_, _, h₅, asClass, rfl⟩ := Checked.both_eq_ok_iff.1 h₄
  obtain ⟨_, _, h₆, scriptFile, rfl⟩ := Checked.both_eq_ok_iff.1 h₅
  obtain ⟨_, _, h₇, -, rfl⟩ := Checked.both_eq_ok_iff.1 h₆
  obtain ⟨_, _, h₈, -, rfl⟩ := Checked.both_eq_ok_iff.1 h₇
  obtain ⟨_, _, h₉, bundleName, rfl⟩ := Checked.both_eq_ok_iff.1 h₈
  obtain ⟨_, _, h₁₀, globalBundle, rfl⟩ := Checked.both_eq_ok_iff.1 h₉
  obtain ⟨_, _, h₁₁, -, rfl⟩ := Checked.both_eq_ok_iff.1 h₁₀
  cases h₁₁
  exact ⟨globalBundle, bundleName, scriptFile, asClass, className, addToGlobal, addAsInstance⟩

theorem describes_of_bind {pairs : List (String × Value)} (hn : (pairs.map Prod.fst).Nodup)
    {p : SiteParameters} (h : bindParameters pairs = .ok p) : Describes pairs p := by
  rw [bindParameters, lastValues_of_nodup hn] at h
  split at h
  next => cases h
  next =>
    cases hd : decodeParameters pairs with
    | ok p' =>
      rw [hd] at h
      cases h
      exact describes_of_decode hd
    | error is =>
      rw [hd] at h
      cases h

/-! ## Values that a declaration gives -/

/-- The values are those that a declaration gives its parameters, which are all literal and each
given once. -/
structure Declares (declaration : List Instruction) (pairs : List (String × Value)) : Prop where
  literal : ∀ i ∈ declaration, i.kind = .addComponentParameter → i.literal = true
  /-- They may stand in any order. -/
  values : ((declaration.filter fun i => i.kind = .addComponentParameter).map
    fun i => (i.name, i.value)).Perm (pairs.map fun p => (some p.1, p.2))
  distinct : (pairs.map Prod.fst).Nodup

namespace Declares

variable {declaration : List Instruction} {pairs : List (String × Value)} {p : SiteParameters}

theorem mem_iff (h : Declares declaration pairs) {name : String} {v : Value} :
    (name, v) ∈ pairs ↔
      ∃ i ∈ declaration, i.kind = .addComponentParameter ∧ i.name = some name ∧ i.value = v := by
  have hmem : (some name, v) ∈ pairs.map (fun p => (some p.1, p.2)) ↔ (name, v) ∈ pairs := by
    simp
  rw [← hmem, ← h.values.mem_iff]
  simp [and_assoc]

/-- When scripts are extracted, a parameter has the value given. -/
theorem literalParameter?_eq (h : Declares declaration pairs) (name : String) :
    literalParameter? declaration name = pairs.lookup name := by
  rw [literalParameter?]
  split
  next i hi =>
    obtain ⟨hkind, hname⟩ : i.kind = .addComponentParameter ∧ i.name = some name := by
      simpa using List.find?_some hi
    have hmem := List.mem_of_find?_eq_some hi
    rw [if_pos (h.literal i hmem hkind)]
    exact (lookup_of_mem h.distinct (h.mem_iff.2 ⟨i, hmem, hkind, hname, rfl⟩)).symm
  next hi =>
    refine (List.lookup_eq_none_iff.2 fun q hq => ?_).symm
    obtain ⟨i, hmem, hkind, hname, -⟩ := h.mem_iff.1 hq
    have hi := List.find?_eq_none.1 hi i hmem
    have hne : q.1 ≠ name := fun e => hi (by simp [hkind, hname, e])
    simpa using hne.symm

theorem boolParameter_eq (h : Declares declaration pairs) {name : String} {default b : Bool}
    (hb : withDefault name default strictBool pairs = .ok b) :
    (boolParameter declaration name default).1 = b := by
  rw [boolParameter, parameter, h.literalParameter?_eq]
  obtain ⟨hl, rfl⟩ | ⟨v, hl, hr⟩ := withDefault_eq_ok hb
  · rw [hl]
  · rw [hl]
    cases v with
    | bool b' =>
      cases hr
      rfl
    | _ => cases hr

theorem textParameter_eq (h : Declares declaration pairs) {name : String}
    {default o : Option String} (ho : withDefault name default optionalString pairs = .ok o) :
    (textParameter declaration name default).1 = o := by
  rw [textParameter, parameter, h.literalParameter?_eq]
  obtain ⟨hl, rfl⟩ | ⟨v, hl, hr⟩ := withDefault_eq_ok ho
  · rw [hl]
  · rw [hl]
    cases v with
    | null | string =>
      cases hr
      rfl
    | _ => cases hr

end Declares

/-- A fragment and a site have the same values of the parameters that both read. -/
structure Fragment.Matches (f : Fragment) (p : SiteParameters) : Prop where
  globalBundle : f.globalBundle = p.globalBundle
  bundleName : f.bundleName = p.bundleName
  scriptFile : f.scriptFile = p.scriptFile
  asClass : f.asClass = p.asClass
  className : f.className = p.className
  addToGlobal : f.addToGlobal = p.addToGlobal
  addAsInstance : f.addAsInstance = p.addAsInstance

/-- **Both readings agree.** If the values that a declaration gives are not refused when a site is
set up, then the fragment of the declaration has the same. -/
theorem Declares.reads {declaration : List Instruction} {pairs : List (String × Value)}
    (h : Declares declaration pairs) {p : SiteParameters} (hp : bindParameters pairs = .ok p)
    {owner body : String} {f : Fragment} {unread : List UnreadParameter}
    (hf : fragmentOf owner body declaration = .script f unread) : f.Matches p := by
  have hd := describes_of_bind h.distinct hp
  cases hf
  exact
    { globalBundle := h.boolParameter_eq hd.globalBundle
      bundleName := h.textParameter_eq hd.bundleName
      scriptFile := h.textParameter_eq hd.scriptFile
      asClass := h.boolParameter_eq hd.asClass
      className := h.textParameter_eq hd.className
      addToGlobal := h.boolParameter_eq hd.addToGlobal
      addAsInstance := h.boolParameter_eq hd.addAsInstance }

end ScriptBundle
