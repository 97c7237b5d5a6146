import TreeEditor.Editing.Rejection

/-! How computations that can be refused end. -/

namespace TreeEditor

variable {G : Grammar}

namespace Outcome

variable {α β ε : Type}

theorem bind_eq_ok {x : Except ε α} {next : α → Except ε β} {b : β} :
    (x >>= next) = .ok b ↔ ∃ a, x = .ok a ∧ next a = .ok b := by
  cases x with
  | error reason => simp [bind, Except.bind]
  | ok a => simp [bind, Except.bind]

theorem map_eq_ok {x : Except ε α} {f : α → β} {b : β} :
    x.map f = .ok b ↔ ∃ a, x = .ok a ∧ f a = b := by
  cases x with
  | error reason => simp [Except.map]
  | ok a => simp [Except.map]

theorem bind_eq_error {x : Except ε α} {next : α → Except ε β} {reason : ε} :
    (x >>= next) = .error reason ↔
      x = .error reason ∨ ∃ a, x = .ok a ∧ next a = .error reason := by
  cases x with
  | error found => simp [bind, Except.bind]
  | ok a => simp [bind, Except.bind]

theorem map_eq_error {x : Except ε α} {f : α → β} {reason : ε} :
    x.map f = .error reason ↔ x = .error reason := by
  cases x with
  | error found => simp [Except.map]
  | ok a => simp [Except.map]

theorem lift_eq_ok {x : Except (Fault G) α} {a : α} :
    (liftM x : Except (Refusal G) α) = .ok a ↔ x = .ok a := by
  cases x with
  | error fault => simp
  | ok found => simp

/-- Steps that all succeed succeed one after the other. Each result is kept in some form, from which
the input of its step can be told. -/
theorem exists_mapM {γ : Type} {f : α → Except ε β} (view : γ → α) (result : γ → β) {P : γ → Prop}
    {xs : List α} (h : ∀ x ∈ xs, ∃ z, f x = .ok (result z) ∧ view z = x ∧ P z) :
    ∃ zs : List γ, xs.mapM f = .ok (zs.map result) ∧ zs.map view = xs ∧ ∀ z ∈ zs, P z := by
  induction xs with
  | nil => exact ⟨[], rfl, rfl, nofun⟩
  | cons x xs ih =>
      obtain ⟨⟨z, hz, hView, hP⟩, hRest⟩ := List.forall_mem_cons.mp h
      obtain ⟨zs, hzs, hViews, hAll⟩ := ih hRest
      refine ⟨z :: zs, ?_, ?_, List.forall_mem_cons.mpr ⟨hP, hAll⟩⟩
      · rw [List.mapM_cons, hz, hzs]
        rfl
      · rw [List.map_cons, hView, hViews]

/-- The computation may be refused, but not because of a broken promise. -/
def FaultFree (x : Except (Refusal G) α) : Prop :=
  ∀ fault, x ≠ .error (.fault fault)

theorem faultFree_ok (a : α) : FaultFree (.ok a : Except (Refusal G) α) := by
  intro fault h
  cases h

theorem faultFree_rejected (reason : Rejection) :
    FaultFree (.error (.rejected reason) : Except (Refusal G) α) := by
  intro fault h
  cases h

theorem FaultFree.bind {x : Except (Refusal G) α} {next : α → Except (Refusal G) β}
    (hFirst : FaultFree x) (hNext : ∀ a, x = .ok a → FaultFree (next a)) :
    FaultFree (x >>= next) := by
  intro fault h
  rcases bind_eq_error.mp h with hFault | ⟨a, ha, hFault⟩
  · exact hFirst fault hFault
  · exact hNext a ha fault hFault

theorem FaultFree.map {x : Except (Refusal G) α} (h : FaultFree x) (f : α → β) :
    FaultFree (x.map f) := by
  intro fault hFault
  exact h fault (map_eq_error.mp hFault)

theorem faultFree_lift {x : Except (Fault G) α} {a : α} (h : x = .ok a) :
    FaultFree (liftM x : Except (Refusal G) α) := by
  rw [h]
  exact faultFree_ok a

/-- The computation succeeds exactly if the condition holds, and is refused for the reason if it does
not. -/
structure DecidedBy (x : Except (Refusal G) α) (P : Prop) (reason : Rejection) : Prop where
  accepted : P → ∃ a, x = .ok a
  refused : ¬ P → x = .error (.rejected reason)

/-- What succeeds has met every condition without which it is refused. -/
theorem of_ok {x : Except (Refusal G) α} {P : Prop} {refusal : Refusal G}
    (hStop : ¬ P → x = .error refusal) (hOk : ∃ a, x = .ok a) : P := by
  apply Classical.byContradiction
  intro hNot
  obtain ⟨a, ha⟩ := hOk
  rw [hStop hNot] at ha
  cases ha

theorem DecidedBy.ok_iff {x : Except (Refusal G) α} {P : Prop} {reason : Rejection}
    (h : DecidedBy x P reason) : (∃ a, x = .ok a) ↔ P :=
  ⟨of_ok h.refused, h.accepted⟩

/-- Two conditions that are met one after the other: without the first nothing succeeds, and with it
the second is left to decide. -/
theorem ok_iff_and {x : Except (Refusal G) α} {P Q : Prop} {refusal : Refusal G}
    (hStop : ¬ P → x = .error refusal) (hGo : P → ((∃ a, x = .ok a) ↔ Q)) :
    (∃ a, x = .ok a) ↔ P ∧ Q := by
  constructor
  · intro hOk
    have hP : P := of_ok hStop hOk
    exact ⟨hP, (hGo hP).mp hOk⟩
  · intro hParts
    obtain ⟨hP, hQ⟩ := hParts
    exact (hGo hP).mpr hQ

theorem DecidedBy.congr {x : Except (Refusal G) α} {P Q : Prop} {reason : Rejection}
    (h : DecidedBy x P reason) (hIff : P ↔ Q) : DecidedBy x Q reason :=
  propext hIff ▸ h

theorem decidedBy_ite {P : Prop} [Decidable P] (reason : Rejection) (a : α) :
    DecidedBy (if ¬ P then .error (.rejected reason) else .ok a : Except (Refusal G) α) P
      reason where
  accepted := fun hP => ⟨a, if_neg (not_not_intro hP)⟩
  refused := fun hNot => if_pos hNot

/-- What follows without a chance of refusal changes nothing about the decision. -/
theorem DecidedBy.bind {x : Except (Refusal G) α} {P : Prop} {reason : Rejection}
    (h : DecidedBy x P reason) {next : α → Except (Refusal G) β}
    (hNext : ∀ a, ∃ b, next a = .ok b) : DecidedBy (x >>= next) P reason where
  accepted := by
    intro hP
    obtain ⟨a, ha⟩ := h.accepted hP
    rw [ha]
    exact hNext a
  refused := by
    intro hNot
    rw [h.refused hNot]
    rfl

theorem DecidedBy.map {x : Except (Refusal G) α} {P : Prop} {reason : Rejection}
    (h : DecidedBy x P reason) (f : α → β) : DecidedBy (x.map f) P reason := by
  cases x <;> exact h.bind fun a => ⟨f a, rfl⟩

/-- A step that succeeds for sure leaves the decision to what follows. -/
theorem DecidedBy.after {x : Except (Refusal G) α} {next : α → Except (Refusal G) β} {a : α}
    {P : Prop} {reason : Rejection} (h : DecidedBy (next a) P reason) (hFirst : x = .ok a) :
    DecidedBy (x >>= next) P reason := by
  rw [hFirst]
  exact h

end Outcome

end TreeEditor
