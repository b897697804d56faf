/-!
Results that are a value or a failure: what a chain of steps that ends well says about each step,
and what all steps of a run keep or end with.
-/

namespace CurlSnippet

namespace Except

variable {ε α β : Type}

theorem bind_eq_ok {x : Except ε α} {f : α → Except ε β} {b : β} :
    x >>= f = .ok b ↔ ∃ a, x = .ok a ∧ f a = .ok b := by
  cases x <;> simp [bind, Except.bind]

theorem map_eq_ok {x : Except ε α} {f : α → β} {b : β} :
    x.map f = .ok b ↔ ∃ a, x = .ok a ∧ f a = b := by
  cases x <;> simp [Except.map]

theorem map_eq_error {x : Except ε α} {f : α → β} {e : ε} :
    x.map f = .error e ↔ x = .error e := by
  cases x <;> simp [Except.map]

/-- A value with one property, or a failure with another. -/
inductive Ends (P : α → Prop) (Q : ε → Prop) : Except ε α → Prop
  | ok {a : α} (h : P a) : Ends P Q (.ok a)
  | error {e : ε} (h : Q e) : Ends P Q (.error e)

variable {P P' : β → Prop} {Q : ε → Prop}

theorem ends_ok_iff {b : β} : Ends P Q (.ok b) ↔ P b :=
  ⟨fun h => by cases h with | ok h => exact h, .ok⟩

theorem ends_error_iff {e : ε} : Ends P Q (.error e) ↔ Q e :=
  ⟨fun h => by cases h with | error h => exact h, .error⟩

theorem Ends.imp {x : Except ε β} (h : Ends P Q x) (hP : ∀ b, P b → P' b) : Ends P' Q x := by
  cases h with
  | ok h => exact .ok (hP _ h)
  | error h => exact .error h

theorem ends_map {f : α → β} {x : Except ε α} :
    Ends P Q (x.map f) ↔ Ends (fun a => P (f a)) Q x := by
  cases x with
  | error e => simp only [Except.map, ends_error_iff]
  | ok a => simp only [Except.map, ends_ok_iff]

/-- If every step keeps the property of values, a run of them does. -/
theorem ends_foldlM {step : β → α → Except ε β} (hstep : ∀ b a, P b → Ends P Q (step b a))
    (as : List α) {b : β} (hb : P b) : Ends P Q (as.foldlM step b) := by
  induction as generalizing b with
  | nil => exact .ok hb
  | cons a rest ih =>
    rw [List.foldlM_cons]
    have hfirst := hstep b a hb
    cases hnext : step b a with
    | error e =>
      rw [hnext, ends_error_iff] at hfirst
      exact .error hfirst
    | ok next =>
      rw [hnext, ends_ok_iff] at hfirst
      exact ih hfirst

end Except

/-- What every step keeps, a whole run keeps, whatever becomes of the state. -/
theorem foldlM_run_invariant {σ ε α β : Type} {step : β → α → StateT σ (Except ε) β}
    {P : β → Prop} (hstep : ∀ b a c s s', P b → (step b a).run s = .ok (c, s') → P c)
    {as : List α} {b c : β} {s s' : σ} (hb : P b) (h : (as.foldlM step b).run s = .ok (c, s')) :
    P c := by
  induction as generalizing b s with
  | nil =>
    obtain ⟨rfl, -⟩ := Prod.mk.inj (Except.ok.inj h)
    exact hb
  | cons a rest ih =>
    rw [List.foldlM_cons, StateT.run_bind] at h
    obtain ⟨⟨next, t⟩, hnext, h⟩ := Except.bind_eq_ok.mp h
    exact ih (hstep b a next s t hb hnext) h

end CurlSnippet
