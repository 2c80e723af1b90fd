import Mathlib.Logic.Basic
import DuplexRelay.Violation

/-! Runs of checked calls. A run that comes to a result has come to a result in each of its
steps. -/

namespace DuplexRelay.Checked

variable {α β γ : Type}

theorem bind_eq_ok_iff {x : Checked α} {f : α → Checked β} {b : β} :
    (x >>= f) = .ok b ↔ ∃ a, x = .ok a ∧ f a = .ok b := by
  cases x with
  | error v => simp [bind, Except.bind]
  | ok a => simp [bind, Except.bind]

theorem map_eq_ok_iff {x : Checked α} {f : α → β} {b : β} :
    x.map f = .ok b ↔ ∃ a, x = .ok a ∧ f a = b := by
  cases x with
  | error v => simp [Except.map]
  | ok a => simp [Except.map]

theorem map_snd_eq_ok_iff {x : Checked (α × β)} {b : β} :
    x.map Prod.snd = .ok b ↔ ∃ a, x = .ok (a, b) := by
  simp [map_eq_ok_iff]

theorem toOption_map_eq_some_iff {x : Checked α} {f : α → β} {b : β} :
    x.toOption.map f = some b ↔ ∃ a, x = .ok a ∧ f a = b := by
  cases x with
  | error v => simp [Except.toOption]
  | ok a => simp [Except.toOption]

theorem exists_ok_of_map {x : Checked α} {f : α → β} (h : ∃ b, x.map f = .ok b) :
    ∃ a, x = .ok a := by
  obtain ⟨b, hb⟩ := h
  obtain ⟨a, ha, _⟩ := map_eq_ok_iff.mp hb
  exact ⟨a, ha⟩

theorem map_eq_error_iff {x : Checked α} {f : α → β} {v : Violation} :
    x.map f = .error v ↔ x = .error v := by
  cases x with
  | error v => simp [Except.map]
  | ok a => simp [Except.map]

theorem bind_eq_error_iff {x : Checked α} {f : α → Checked β} {v : Violation} :
    (x >>= f) = .error v ↔ x = .error v ∨ ∃ a, x = .ok a ∧ f a = .error v := by
  cases x with
  | error v => simp [bind, Except.bind]
  | ok a => simp [bind, Except.bind]

theorem map_bind (x : Checked α) (f : α → Checked β) (g : β → γ) :
    (x >>= f).map g = x >>= fun a => (f a).map g := by
  cases x <;> rfl

theorem bind_map (x : Checked α) (f : α → β) (g : β → Checked γ) :
    (x.map f >>= g) = x >>= fun a => g (f a) := by
  cases x <;> rfl

@[simp] theorem pure_eq_ok (a : α) : (pure a : Checked α) = .ok a := rfl

@[simp] theorem throw_eq_error (v : Violation) : (throw v : Checked α) = .error v := rfl

@[simp] theorem ok_bind (a : α) (f : α → Checked β) : ((.ok a : Checked α) >>= f) = f a := rfl

@[simp] theorem error_bind (v : Violation) (f : α → Checked β) :
    ((.error v : Checked α) >>= f) = .error v := rfl

@[simp] theorem map_ok (a : α) (f : α → β) : (.ok a : Checked α).map f = .ok (f a) := rfl

@[simp] theorem map_error (v : Violation) (f : α → β) :
    (.error v : Checked α).map f = .error v := rfl

end DuplexRelay.Checked
