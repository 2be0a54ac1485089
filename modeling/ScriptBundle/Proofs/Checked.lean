import Mathlib.Data.List.Induction
import ScriptBundle.Validation.Lax
/-!
# The issues of a reading

A reading that fails says why: it is `Explained`. An explained reading succeeds exactly if it has no
issues (`Explained.exists_ok_iff`), and its failure holds these issues and no others
(`Explained.eq_error_iff`). So it is enough to know the issues of a reading that is put together,
which are those of its parts, in order (`issues_both`, `issues_allFrom`).
-/

namespace ScriptBundle.Validation

namespace Checked

variable {α β : Type} {c : Checked α}

/-- The reading does not fail without an issue. -/
def Explained (c : Checked α) : Prop := c ≠ .error []

@[simp] theorem issues_ok (a : α) : issues (.ok a) = [] := rfl

@[simp] theorem issues_error (is : List Issue) : issues (.error is : Checked α) = is := rfl

@[simp] theorem issues_fail (kind : IssueKind) :
    (fail kind : Checked α).issues = [Issue.here kind] := rfl

@[simp] theorem explained_ok (a : α) : Explained (.ok a) := nofun

@[simp] theorem explained_fail (kind : IssueKind) : Explained (fail kind : Checked α) := nofun

theorem Explained.exists_ok_iff (h : c.Explained) : (∃ a, c = .ok a) ↔ c.issues = [] := by
  cases c with
  | ok a => simp
  | error is =>
    have hne : is ≠ [] := fun hnil => h (congrArg _ hnil)
    simpa using hne

theorem Explained.eq_error_iff (h : c.Explained) {is : List Issue} :
    c = .error is ↔ c.issues = is ∧ is ≠ [] := by
  cases c with
  | ok a =>
    refine iff_of_false nofun ?_
    rintro ⟨hnil, hne⟩
    exact hne hnil.symm
  | error js =>
    have hne : js ≠ [] := fun hnil => h (congrArg _ hnil)
    rw [Except.error.injEq, issues_error]
    exact ⟨fun heq => ⟨heq, heq ▸ hne⟩, And.left⟩

/-! ## Readings that are put together -/

theorem both_eq_ok_iff {f : Checked (α → β)} {x : Checked α} {b : β} :
    both f x = .ok b ↔ ∃ g a, f = .ok g ∧ x = .ok a ∧ g a = b := by
  cases f <;> cases x <;> simp [both]

@[simp] theorem issues_both (f : Checked (α → β)) (x : Checked α) :
    (both f x).issues = f.issues ++ x.issues := by
  cases f <;> cases x <;> simp [both]

theorem Explained.both {f : Checked (α → β)} {x : Checked α} (hf : f.Explained)
    (hx : x.Explained) : (both f x).Explained := by
  intro h
  obtain ⟨hfi, hxi⟩ := List.append_eq_nil_iff.1 ((issues_both f x).symm.trans (congrArg issues h))
  obtain ⟨g, rfl⟩ := hf.exists_ok_iff.2 hfi
  obtain ⟨a, rfl⟩ := hx.exists_ok_iff.2 hxi
  cases h

@[simp] theorem issues_under (s : PathStep) (c : Checked α) :
    (under s c).issues = c.issues.map (Issue.under s) := by
  cases c <;> rfl

theorem under_eq_ok_iff {s : PathStep} {a : α} : under s c = .ok a ↔ c = .ok a := by
  cases c <;> simp [under]

theorem Explained.under (h : c.Explained) (s : PathStep) : (under s c).Explained := by
  intro hunder
  have hnil : c.issues = [] := by
    simpa using (issues_under s c).symm.trans (congrArg issues hunder)
  obtain ⟨a, rfl⟩ := h.exists_ok_iff.2 hnil
  cases hunder

/-- The issues of the items of a list, each under its place. -/
theorem issues_allFrom (n : Nat) (cs : List (Checked α)) :
    (allFrom n cs).issues =
      (cs.zipIdx n).flatMap fun p => p.1.issues.map (Issue.under (.index p.2)) := by
  induction cs generalizing n with
  | nil => rfl
  | cons c cs ih => simp [allFrom, ih]

theorem allFrom_eq_ok_iff {n : Nat} {cs : List (Checked α)} {as : List α} :
    allFrom n cs = .ok as ↔ cs = as.map .ok := by
  induction cs generalizing n as with
  | nil => cases as <;> simp [allFrom]
  | cons c cs ih =>
    cases as with
    | nil => simp [allFrom, both_eq_ok_iff]
    | cons a as => simp [allFrom, both_eq_ok_iff, under_eq_ok_iff, ih]

end Checked

/-! ## Members of objects -/

section Members

open Checked

variable {α : Type} {name : String} {default a : α} {read : Value → Checked α}
  {members : List (String × Value)}

theorem Explained.withDefault (h : ∀ v, (read v).Explained) :
    (withDefault name default read members).Explained := by
  refine Explained.under ?_ _
  split
  · exact h _
  · exact explained_ok _

theorem issues_withDefault : (withDefault name default read members).issues =
    ((members.lookup name).toList.flatMap fun v => (read v).issues).map
      (Issue.under (.field name)) := by
  rw [withDefault, issues_under]
  cases members.lookup name <;> simp

theorem explained_optionalString (v : Value) : (optionalString v).Explained := by
  cases v <;> exact nofun

theorem explained_strictBool (v : Value) : (strictBool v).Explained := by
  cases v <;> exact nofun

end Members

end ScriptBundle.Validation
