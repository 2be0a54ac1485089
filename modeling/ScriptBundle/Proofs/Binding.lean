import ScriptBundle.Proofs.Checked
import ScriptBundle.Proofs.Lists
import ScriptBundle.Proofs.Parameters
/-!
# Binding is exact

Each parameter of a site is a slot: it has a name, a type, and a value in every `SiteParameters`.
Named values are bound exactly (`BindsExactly`): the first name that is no slot's is refused
whatever the values are, otherwise all slots that are given a value of another type are, in the
order of `slots`, and otherwise each slot has the value given or its default. Apart from which
unknown name is reported, the order of the values does not matter: `binds_exactly`.
-/

namespace ScriptBundle

open Validation Checked

/-! ## Slots -/

/-- What the value of a parameter may be. -/
inductive SlotType where
  /-- Anything. -/
  | any
  /-- A truth value. -/
  | flag
  /-- A text or null. -/
  | text
  deriving DecidableEq, Repr

namespace SlotType

/-- Holds of the values of a type. No other value is converted to one of them. -/
def takes : SlotType → Value → Bool
  | .any, _ => true
  | .flag, .bool _ => true
  | .text, .string _ => true
  | .text, .null => true
  | _, _ => false

/-- What is wrong with other values. -/
def refusal : SlotType → IssueKind
  | .flag => .boolType
  | _ => .stringType

end SlotType

/-- A parameter of sites. -/
structure Slot where
  /-- Its name. -/
  name : String
  /-- What its value may be. -/
  type : SlotType
  /-- Its value among those of a site. -/
  value : SiteParameters → Value

namespace SiteParameters

/-- The parameters of sites, in the order of their declaration. -/
def slots : List Slot :=
  [⟨"ChildContent", .any, fun p => p.childContent⟩,
    ⟨"GlobalBundle", .flag, fun p => .bool p.globalBundle⟩,
    ⟨"BundleName", .text, fun p => .ofOptional p.bundleName⟩,
    ⟨"OnInit", .text, fun p => .ofOptional p.onInit⟩,
    ⟨"OnUnload", .text, fun p => .ofOptional p.onUnload⟩,
    ⟨"ScriptFile", .text, fun p => .ofOptional p.scriptFile⟩,
    ⟨"AsClass", .flag, fun p => .bool p.asClass⟩,
    ⟨"ClassName", .text, fun p => .ofOptional p.className⟩,
    ⟨"AddToGlobal", .flag, fun p => .bool p.addToGlobal⟩,
    ⟨"AddAsInstance", .flag, fun p => .bool p.addAsInstance⟩,
    ⟨"HostRef", .any, fun p => p.hostRef⟩]

/-- Every parameter has its default if it is not given. -/
def defaults : SiteParameters := {}

theorem ofOptional_injective : Function.Injective Value.ofOptional := by
  rintro (_ | s) (_ | t) h
  · rfl
  · cases h
  · cases h
  · exact congrArg some (Value.string.inj h)

/-- The values of its slots are all that there is to the parameters of a site. -/
theorem ext_slots {p q : SiteParameters} (h : ∀ s ∈ slots, s.value p = s.value q) : p = q := by
  simp only [slots, List.forall_mem_cons, Value.bool.injEq, ofOptional_injective.eq_iff] at h
  obtain ⟨h₁, h₂, h₃, h₄, h₅, h₆, h₇, h₈, h₉, h₁₀, h₁₁, -⟩ := h
  cases p
  cases q
  congr

end SiteParameters

open SiteParameters (slots defaults)

namespace Slot

variable (s : Slot) (pairs : List (String × Value))

/-- The slot is given a value of another type. -/
def Refuses : Prop := ∃ p ∈ pairs, p.1 = s.name ∧ s.type.takes p.2 = false

instance : Decidable (s.Refuses pairs) := inferInstanceAs (Decidable (∃ p ∈ pairs, _))

/-- The report of that. -/
def refusals : List Issue :=
  if s.Refuses pairs then [⟨s.type.refusal, [.field s.name]⟩] else []

/-- The value of the slot that named values describe: the one given, or the default. -/
def given : Value := (pairs.lookup s.name).getD (s.value defaults)

variable {s pairs}

theorem refuses_iff (hn : (pairs.map Prod.fst).Nodup) :
    s.Refuses pairs ↔ ∃ v, pairs.lookup s.name = some v ∧ s.type.takes v = false := by
  constructor
  · rintro ⟨⟨name, v⟩, hmem, rfl, hv⟩
    exact ⟨v, lookup_of_mem hn hmem, hv⟩
  · rintro ⟨v, hv, htakes⟩
    exact ⟨(s.name, v), mem_of_lookup hv, rfl, htakes⟩

theorem refusals_eq_nil_iff : s.refusals pairs = [] ↔ ¬ s.Refuses pairs := by
  simp [refusals]

end Slot

/-! ## Readings of slots -/

/-- A slot is read from named values: a value of its type as it is, any other with a report. -/
structure Slot.ReadBy {α : Type} (s : Slot) (read : Value → Checked α) (value : α → Value) :
    Prop where
  issues : ∀ v, (read v).issues = if s.type.takes v then [] else [Issue.here s.type.refusal]
  unchanged : ∀ {v a}, read v = .ok a → value a = v

section Reading

variable {α : Type} {s : Slot} {read : Value → Checked α} {value : α → Value} {default a : α}
  {pairs : List (String × Value)}

theorem readBy_ok (h : s.type = .any) : s.ReadBy .ok id where
  issues v := by simp [h, SlotType.takes]
  unchanged h := (Except.ok.inj h).symm

theorem readBy_strictBool (h : s.type = .flag) : s.ReadBy strictBool .bool where
  issues v := by cases v <;> simp [h, strictBool, SlotType.takes, SlotType.refusal]
  unchanged {v a} h := by
    cases v <;> cases h
    rfl

theorem readBy_optionalString (h : s.type = .text) : s.ReadBy optionalString .ofOptional where
  issues v := by
    cases v <;> simp [h, optionalString, string, Except.map, fail, SlotType.takes, SlotType.refusal]
  unchanged {v a} h := by
    cases v <;> cases h <;> rfl

namespace Slot.ReadBy

/-- The slot has one issue if it is given a value of another type, and else none. -/
theorem issues_withDefault (h : s.ReadBy read value) (hn : (pairs.map Prod.fst).Nodup)
    (default : α) :
    (withDefault s.name default read pairs).issues = s.refusals pairs := by
  rw [Validation.issues_withDefault, Slot.refusals]
  simp only [Slot.refuses_iff hn]
  cases pairs.lookup s.name with
  | none => simp
  | some v => cases hv : s.type.takes v <;> simp [h.issues, hv, Issue.under, Issue.here]

/-- The slot has the value given, or its default. -/
theorem value_withDefault (h : s.ReadBy read value)
    (ha : withDefault s.name default read pairs = .ok a)
    (hdefault : value default = s.value defaults) : value a = s.given pairs := by
  rw [withDefault, under_eq_ok_iff] at ha
  rw [Slot.given]
  cases hl : pairs.lookup s.name with
  | none =>
    rw [hl] at ha
    rw [← Except.ok.inj ha, hdefault, Option.getD_none]
  | some v =>
    rw [hl] at ha
    rw [h.unchanged ha, Option.getD_some]

end Slot.ReadBy

end Reading

/-! ## All slots -/

section Decoding

variable {pairs : List (String × Value)} {p : SiteParameters}

theorem explained_decodeParameters (pairs : List (String × Value)) :
    (decodeParameters pairs).Explained := by
  have hany : ∀ v : Value, Explained (.ok v) := explained_ok
  repeat apply Explained.both
  · exact explained_ok _
  all_goals first
    | exact Explained.withDefault hany
    | exact Explained.withDefault explained_strictBool
    | exact Explained.withDefault explained_optionalString

/-- The issues are those of the slots, in their order. -/
theorem issues_decodeParameters (hn : (pairs.map Prod.fst).Nodup) :
    (decodeParameters pairs).issues = slots.flatMap (·.refusals pairs) := by
  have any := fun s d hs => (readBy_ok (s := s) hs).issues_withDefault hn d
  have flag := fun s d hs => (readBy_strictBool (s := s) hs).issues_withDefault hn d
  have text := fun s d hs => (readBy_optionalString (s := s) hs).issues_withDefault hn d
  simp only [decodeParameters, issues_both, issues_ok, List.nil_append, List.append_assoc, slots,
    List.flatMap_cons, List.flatMap_nil, List.append_nil]
  rw [← any _ _ rfl, ← flag _ _ rfl, ← text _ _ rfl, ← text _ _ rfl, ← text _ _ rfl,
    ← text _ _ rfl, ← flag _ _ rfl, ← text _ _ rfl, ← flag _ _ rfl, ← flag _ _ rfl, ← any _ _ rfl]

/-- Whatever is not refused is kept. -/
theorem value_of_decodeParameters (h : decodeParameters pairs = .ok p) :
    ∀ s ∈ slots, s.value p = s.given pairs := by
  simp only [decodeParameters, both_eq_ok_iff, Except.ok.injEq] at h
  obtain ⟨_, hostRef, ⟨_, addAsInstance, ⟨_, addToGlobal, ⟨_, className, ⟨_, asClass,
    ⟨_, scriptFile, ⟨_, onUnload, ⟨_, onInit, ⟨_, bundleName, ⟨_, globalBundle, ⟨_, childContent,
    rfl, h₁, rfl⟩, h₂, rfl⟩, h₃, rfl⟩, h₄, rfl⟩, h₅, rfl⟩, h₆, rfl⟩, h₇, rfl⟩, h₈, rfl⟩, h₉, rfl⟩,
    h₁₀, rfl⟩, h₁₁, rfl⟩ := h
  simp only [slots, List.forall_mem_cons]
  exact ⟨(readBy_ok rfl).value_withDefault h₁ rfl, (readBy_strictBool rfl).value_withDefault h₂ rfl,
    (readBy_optionalString rfl).value_withDefault h₃ rfl,
    (readBy_optionalString rfl).value_withDefault h₄ rfl,
    (readBy_optionalString rfl).value_withDefault h₅ rfl,
    (readBy_optionalString rfl).value_withDefault h₆ rfl,
    (readBy_strictBool rfl).value_withDefault h₇ rfl,
    (readBy_optionalString rfl).value_withDefault h₈ rfl,
    (readBy_strictBool rfl).value_withDefault h₉ rfl,
    (readBy_strictBool rfl).value_withDefault h₁₀ rfl,
    (readBy_ok rfl).value_withDefault h₁₁ rfl, nofun⟩

/-- Named values describe parameters exactly if no slot refuses them, and then those whose slots
have the values given or their defaults. -/
theorem decodeParameters_eq_ok_iff (hn : (pairs.map Prod.fst).Nodup) :
    decodeParameters pairs = .ok p ↔
      ∀ s ∈ slots, ¬ s.Refuses pairs ∧ s.value p = s.given pairs := by
  have hissues : (∃ q, decodeParameters pairs = .ok q) ↔ ∀ s ∈ slots, ¬ s.Refuses pairs := by
    rw [(explained_decodeParameters pairs).exists_ok_iff, issues_decodeParameters hn]
    simp only [List.flatMap_eq_nil_iff, Slot.refusals_eq_nil_iff]
  constructor
  · intro h s hs
    exact ⟨hissues.1 ⟨p, h⟩ s hs, value_of_decodeParameters h s hs⟩
  · intro h
    obtain ⟨q, hq⟩ := hissues.2 fun s hs => (h s hs).1
    have heq : q = p := SiteParameters.ext_slots fun s hs =>
      (value_of_decodeParameters hq s hs).trans (h s hs).2.symm
    rw [hq, heq]

/-- They are refused with the reports of all slots that refuse them. -/
theorem decodeParameters_eq_error_iff (hn : (pairs.map Prod.fst).Nodup) {issues : List Issue} :
    decodeParameters pairs = .error issues ↔
      (∃ s ∈ slots, s.Refuses pairs) ∧ issues = slots.flatMap (·.refusals pairs) := by
  rw [(explained_decodeParameters pairs).eq_error_iff, issues_decodeParameters hn]
  have hne : slots.flatMap (·.refusals pairs) ≠ [] ↔ ∃ s ∈ slots, s.Refuses pairs := by
    simp [List.flatMap_eq_nil_iff, Slot.refusals_eq_nil_iff]
  constructor
  · rintro ⟨rfl, h⟩
    exact ⟨hne.1 h, rfl⟩
  · rintro ⟨h, rfl⟩
    exact ⟨rfl, hne.2 h⟩

/-- The order of named values does not matter. -/
theorem decodeParameters_perm {pairs' : List (String × Value)} (h : pairs.Perm pairs')
    (hn : (pairs.map Prod.fst).Nodup) : decodeParameters pairs = decodeParameters pairs' := by
  simp only [decodeParameters, withDefault, lookup_perm h hn]

end Decoding

/-! ## Binding -/

section Binding

variable {pairs pairs' : List (String × Value)}

/-- Every value is that of a slot. -/
def AllKnown (pairs : List (String × Value)) : Prop := ∀ p ∈ pairs, p.1 ∈ SiteParameters.names

/-- A name is the first among those of the values that is no slot's. -/
def FirstUnknown (pairs : List (String × Value)) (name : String) : Prop :=
  ∃ before v after, pairs = before ++ (name, v) :: after ∧ AllKnown before ∧
    name ∉ SiteParameters.names

theorem AllKnown.perm (hk : AllKnown pairs) (h : pairs.Perm pairs') : AllKnown pairs' :=
  fun p hp => hk p (h.symm.subset hp)

theorem FirstUnknown.not_allKnown {name : String} (h : FirstUnknown pairs name) :
    ¬ AllKnown pairs := by
  obtain ⟨before, v, after, rfl, -, hname⟩ := h
  intro hk
  exact hname (hk (name, v) (by simp))

theorem exists_firstUnknown (h : ¬ AllKnown pairs) : ∃ name, FirstUnknown pairs name := by
  obtain ⟨before, p, after, rfl, hbefore, hp⟩ := exists_first_not h
  exact ⟨p.1, before, p.2, after, rfl, hbefore, hp⟩

/-- Values are bound in two steps: names first, then all types. -/
theorem bindParameters_of_firstUnknown {name : String} (h : FirstUnknown pairs name) :
    bindParameters pairs = .error (.unknownParameter name) := by
  obtain ⟨before, v, after, rfl, hbefore, hname⟩ := h
  have hfind : ((before ++ (name, v) :: after).find? fun p =>
      !SiteParameters.names.contains p.1) = some (name, v) := by
    rw [List.find?_append, List.find?_eq_none.2 fun p hp => ?_, Option.none_or,
      List.find?_cons_of_pos (by simpa using hname)]
    simpa using hbefore p hp
  rw [bindParameters, hfind]

theorem FirstUnknown.unique {m n : String} (hm : FirstUnknown pairs m)
    (hn : FirstUnknown pairs n) : m = n := by
  have h := (bindParameters_of_firstUnknown hm).symm.trans (bindParameters_of_firstUnknown hn)
  cases h
  rfl

theorem bindParameters_of_allKnown (h : AllKnown pairs) (hn : (pairs.map Prod.fst).Nodup) :
    bindParameters pairs = (decodeParameters pairs).mapError .wrongTypes := by
  have hfind : (pairs.find? fun p => !SiteParameters.names.contains p.1) = none := by
    rw [List.find?_eq_none]
    intro p hp
    simpa using h p hp
  rw [bindParameters, hfind, lastValues_of_nodup hn]
  cases decodeParameters pairs <;> rfl

/-- What binding named values comes to. -/
structure BindsExactly (pairs : List (String × Value))
    (outcome : Except BindingError SiteParameters) : Prop where
  /-- The first name that is no slot's is refused, whatever the values are, -/
  unknown : ∀ name, outcome = .error (.unknownParameter name) ↔ FirstUnknown pairs name
  /-- otherwise all values of other types than their slots take, in the order of the slots, -/
  mistyped : ∀ issues, outcome = .error (.wrongTypes issues) ↔
    AllKnown pairs ∧ (∃ s ∈ slots, s.Refuses pairs) ∧ issues = slots.flatMap (·.refusals pairs)
  /-- and otherwise each slot has the value given as it is, or its default. -/
  bound : ∀ p, outcome = .ok p ↔
    AllKnown pairs ∧ ∀ s ∈ slots, ¬ s.Refuses pairs ∧ s.value p = s.given pairs

/-- Outcomes that are the same but for the unknown name that is reported. -/
def SameBinding (o o' : Except BindingError SiteParameters) : Prop :=
  o = o' ∨ ∃ name name', o = .error (.unknownParameter name) ∧ o' = .error (.unknownParameter name')

theorem bindsExactly (hn : (pairs.map Prod.fst).Nodup) :
    BindsExactly pairs (bindParameters pairs) := by
  by_cases hk : AllKnown pairs
  · have hnone : ∀ name, ¬ FirstUnknown pairs name := fun name h => h.not_allKnown hk
    rw [bindParameters_of_allKnown hk hn]
    constructor
    · intro name
      refine iff_of_false (fun h => ?_) (hnone name)
      cases hd : decodeParameters pairs <;> simp [hd, Except.mapError] at h
    · intro issues
      rw [← decodeParameters_eq_error_iff hn, and_iff_right hk]
      cases decodeParameters pairs <;> simp [Except.mapError]
    · intro p
      rw [← decodeParameters_eq_ok_iff hn, and_iff_right hk]
      cases decodeParameters pairs <;> simp [Except.mapError]
  · obtain ⟨first, hfirst⟩ := exists_firstUnknown hk
    rw [bindParameters_of_firstUnknown hfirst]
    constructor
    · intro name
      rw [Except.error.injEq, BindingError.unknownParameter.injEq]
      exact ⟨fun h => h ▸ hfirst, hfirst.unique⟩
    · exact fun _ => iff_of_false nofun fun h => hk h.1
    · exact fun _ => iff_of_false nofun fun h => hk h.1

/-- **Binding is exact.** Named values whose names are distinct are bound by three rules, of which
the first that applies counts, and their order matters only for the unknown name that is reported.
-/
theorem binds_exactly (hn : (pairs.map Prod.fst).Nodup) :
    BindsExactly pairs (bindParameters pairs) ∧
      ∀ pairs', pairs.Perm pairs' → SameBinding (bindParameters pairs) (bindParameters pairs') := by
  refine ⟨bindsExactly hn, fun pairs' h => ?_⟩
  have hn' : (pairs'.map Prod.fst).Nodup := (h.map Prod.fst).nodup_iff.1 hn
  by_cases hk : AllKnown pairs
  · left
    rw [bindParameters_of_allKnown hk hn, bindParameters_of_allKnown (hk.perm h) hn',
      decodeParameters_perm h hn]
  · right
    obtain ⟨name, hname⟩ := exists_firstUnknown hk
    obtain ⟨name', hname'⟩ := exists_firstUnknown fun hk' => hk (hk'.perm h.symm)
    exact ⟨name, name', bindParameters_of_firstUnknown hname,
      bindParameters_of_firstUnknown hname'⟩

/-- Two values of wrong types are reported in the order of the slots, not in that of the values. -/
theorem binds_exactly_mistyped :
    let pairs : List (String × Value) :=
      [("AddToGlobal", .string "true"), ("HostRef", .array []), ("BundleName", .int 1)]
    (pairs.map Prod.fst).Nodup ∧
      bindParameters pairs = .error (.wrongTypes
        [⟨.stringType, [.field "BundleName"]⟩, ⟨.boolType, [.field "AddToGlobal"]⟩]) ∧
      BindsExactly pairs (bindParameters pairs) ∧
      ∀ pairs', pairs.Perm pairs' → SameBinding (bindParameters pairs) (bindParameters pairs') := by
  intro pairs
  have hn : (pairs.map Prod.fst).Nodup := by decide
  exact ⟨hn, by rfl, binds_exactly hn⟩

end Binding

end ScriptBundle
