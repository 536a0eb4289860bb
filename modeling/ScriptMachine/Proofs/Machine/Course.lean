import ScriptMachine.Machine.Run

/-!
# Course — the machines that a run goes through

`Passes` relates the machine at which a run starts to those at which it fetches an instruction. What
one instruction preserves holds of all of them, and a run ends with what its last instruction does.
-/

namespace ScriptMachine.Machine

variable {mode : Mode} {first b : Bool} {m m' : Machine}

/-- What becomes of an error at a place. -/
def routed (u : Machine) (c : Cause) (span : Span) : Tick :=
  match u.handle c span with
  | (none, m) => .next m
  | (some fault, m) => .fault fault m

/-- The machine while it executes an instruction. -/
def fetching (v : Machine) : Machine := { v with cycles := v.cycles + 1, pc := v.pc + 1 }

/-- A machine within its limits executes the instruction at its place. -/
theorem tick_of_instruction {i : Instruction} (hlimit : m.exceeded? = none)
    (hi : m.program.instruction? m.sectionIndex m.pc = some i) :
    m.tick .run first = match dispatch i m.fetching with
      | .ok none m => .next m
      | .ok (some reason) m => .stop reason m
      | .error cause m => m.routed cause i.span := by
  unfold tick
  rw [hlimit]
  simp only
  rw [hi]
  simp only [reduceCtorEq, false_and, if_false]
  rfl

/-- From `m` on, the machine fetches an instruction at `m'`; the flag tells whether it is the first. -/
inductive Passes (mode : Mode) (first : Bool) (m : Machine) : Bool → Machine → Prop where
  | start : Passes mode first m first m
  | next {b : Bool} {m₁ m₂ : Machine} :
      Passes mode first m b m₁ → m₁.tick mode b = .next m₂ → Passes mode first m false m₂

theorem Passes.head {m₁ : Machine} (h : m.tick mode first = .next m₁)
    (hp : Passes mode false m₁ b m') : Passes mode first m b m' := by
  induction hp with
  | start => exact .next .start h
  | next _ ht ih => exact .next ih ht

theorem Passes.invariant {I : Machine → Prop} (h0 : I m)
    (hstep : ∀ b m₁ m₂, I m₁ → m₁.tick mode b = .next m₂ → I m₂) (hp : Passes mode first m b m') :
    I m' := by
  induction hp with
  | start => exact h0
  | next _ ht ih => exact hstep _ _ _ ih ht

/-- A run ends with the stop or the fault of the last instruction it fetches. -/
theorem drive_ends {fuel : Nat} {r : Except Fault Stop} (h : drive mode fuel first m = some (r, m')) :
    ∃ b m₁, Passes mode first m b m₁ ∧
      ((∃ reason, r = .ok reason ∧ m₁.tick mode b = .stop reason m') ∨
        ∃ fault, r = .error fault ∧ m₁.tick mode b = .fault fault m') := by
  induction fuel generalizing first m with
  | zero => simp [drive] at h
  | succ fuel ih =>
    unfold drive at h
    cases ht : m.tick mode first with
    | next m₁ =>
      rw [ht] at h
      obtain ⟨b, m₂, hp, he⟩ := ih h
      exact ⟨b, m₂, hp.head ht, he⟩
    | stop reason m₁ =>
      rw [ht] at h
      cases h
      exact ⟨first, m, .start, .inl ⟨reason, rfl, ht⟩⟩
    | fault fault m₁ =>
      rw [ht] at h
      cases h
      exact ⟨first, m, .start, .inr ⟨fault, rfl, ht⟩⟩

end ScriptMachine.Machine
