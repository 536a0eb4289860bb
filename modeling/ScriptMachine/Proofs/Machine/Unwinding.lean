import ScriptMachine.Proofs.Machine.Reset

/-!
# Unwinding — which handler an error finds

An error goes down the stack over values, loop markers and the frames of calls between scripts, and stops at
the first try region or frame of a host call (`Topmost`). What lies above that entry leaves no trace in the
machine: a frame that is passed sets the place back, and the entry that stops the error, or the bottom of the
stack, decides where the machine stands in the end (`unwinding_exact`).
-/

namespace ScriptMachine

namespace Entry

/-- Whether an error goes on below the entry: it is neither a try region nor the frame of a host call. -/
def letsPass : Entry → Bool
  | .region _ => false
  | .frame f => !f.fromHost
  | .value _ | .loop _ => true

/-- The frame that an entry is. -/
def frame? : Entry → Option Frame
  | .frame f => some f
  | _ => none

end Entry

/-- The entry that stops an error, with what lies above and below it. -/
structure Topmost (entries above : List Entry) (e : Entry) (below : List Entry) : Prop where
  split : entries = above ++ e :: below
  passed : ∀ a ∈ above, a.letsPass = true
  stops : e.letsPass = false

/-- An error that nothing stops passes every entry. -/
theorem exists_topmost (entries : List Entry) :
    (∃ above e below, Topmost entries above e below) ∨ ∀ a ∈ entries, a.letsPass = true := by
  induction entries with
  | nil => exact .inr fun _ ha => absurd ha List.not_mem_nil
  | cons a rest ih =>
    by_cases ha : a.letsPass = true
    · rcases ih with ⟨above, e, below, h⟩ | h
      · exact .inl ⟨a :: above, e, below, by rw [h.split, List.cons_append],
          List.forall_mem_cons.2 ⟨ha, h.passed⟩, h.stops⟩
      · exact .inr (List.forall_mem_cons.2 ⟨ha, h⟩)
    · exact .inl ⟨[], a, rest, rfl, fun _ hb => absurd hb List.not_mem_nil, Bool.eq_false_iff.2 ha⟩

/-- The callees of the frames among entries, the topmost first. -/
def callees (entries : List Entry) : List String := (entries.filterMap Entry.frame?).map (·.callee)

/-- What a handler gets of an error, and the heap that this leaves: the thrown value itself, or a new error
value with the message of the error. -/
structure Delivers (c : Cause) (h : Heap) (x : Value) (h' : Heap) : Prop where
  thrown : ∀ y, c = .thrown y → x = y ∧ h' = h
  raised : (∀ y, c ≠ .thrown y) → x = .error (.made h.stamps) (c.message h) ∧ h' = { h with stamps := h.stamps + 1 }

namespace Machine

variable {m : Machine} {c : Cause} {span : Span} {above below entries : List Entry} {last : Option Frame}

/-! ### Down the stack -/

/-- **Entries that let an error pass** add their frames to the trace, and the lowest of those frames is the
last one passed. -/
theorem unwind_passed (h : ∀ a ∈ above, a.letsPass = true) (last : Option Frame) (rest : List Entry) :
    unwind last (above ++ rest) =
      ((unwind ((above.filterMap Entry.frame?).getLast?.or last) rest).1,
        above.filterMap Entry.frame? ++ (unwind ((above.filterMap Entry.frame?).getLast?.or last) rest).2) := by
  induction above generalizing last with
  | nil => rfl
  | cons a above ih =>
    obtain ⟨ha, habove⟩ := List.forall_mem_cons.1 h
    cases a with
    | value v => exact ih habove last
    | loop env => exact ih habove last
    | region r => cases ha
    | frame f =>
      have hf : f.fromHost = false := by simpa [Entry.letsPass] using ha
      have hlast : ((f :: above.filterMap Entry.frame?).getLast?).or last =
          (above.filterMap Entry.frame?).getLast?.or (some f) := by
        rw [List.getLast?_cons]
        cases (above.filterMap Entry.frame?).getLast? <;> rfl
      have hframes : (Entry.frame f :: above).filterMap Entry.frame? = f :: above.filterMap Entry.frame? := rfl
      rw [List.cons_append, unwind, if_neg (by simp [hf]), ih habove (some f), hframes, hlast]
      rfl

theorem unwind_region {r : Region} (h : Topmost entries above (.region r) below) :
    unwind last entries = (.region r below, above.filterMap Entry.frame?) := by
  rw [h.split, unwind_passed h.passed]
  simp [unwind]

theorem unwind_host {f : Frame} (h : Topmost entries above (.frame f) below) :
    unwind last entries = (.host f below, (above ++ [Entry.frame f]).filterMap Entry.frame?) := by
  have hf : f.fromHost = true := by simpa [Entry.letsPass] using h.stops
  rw [h.split, unwind_passed h.passed]
  simp [unwind, hf, Entry.frame?]

theorem unwind_bottom (h : ∀ a ∈ entries, a.letsPass = true) :
    unwind none entries =
      (.bottom (entries.filterMap Entry.frame?).getLast?, entries.filterMap Entry.frame?) := by
  have hpassed := unwind_passed h none []
  rw [List.append_nil] at hpassed
  rw [hpassed]
  simp [unwind]

/-! ### What arrives -/

theorem delivers_thrownValue (c : Cause) (h : Heap) : Delivers c h (thrownValue c h).1 (thrownValue c h).2 := by
  cases c with
  | thrown y => exact ⟨fun x hx => by cases hx; exact ⟨rfl, rfl⟩, fun hne => absurd rfl (hne y)⟩
  | _ => exact ⟨fun _ hx => (by cases hx), fun _ => ⟨rfl, rfl⟩⟩

/-- How an error reaches the host that nothing stopped before: the fault, and what the machine keeps of it. -/
structure Surfaces (m : Machine) (c : Cause) (span : Span) (x : Value) (passed : List Entry) (fault : Fault)
    (m' : Machine) : Prop where
  /-- A thrown value is an uncaught exception with its message. -/
  thrown : ∀ y, c = .thrown y → fault.cause = .uncaught (y.message m.heap)
  /-- Any other error stays what it is. -/
  raised : (∀ y, c ≠ .thrown y) → fault.cause = c
  /-- The trace names the section that failed, the place in it where that is known, and the bodies unwound. -/
  trace : fault.trace = some
    { source := m.program.sectionName? m.sectionIndex
      position := if span.isUnknown then none else some (span.line, span.column)
      frames := callees passed }
  /-- One line is logged. -/
  logged : ∃ trace, fault.trace = some trace ∧
    m'.log = m.log.push (fault.cause.message m'.heap ++ " " ++ trace.text)
  remembered : m'.lastException = some x

/-- Surfacing reports the error and writes the log and the last exception; what is set after that does not
matter to the host. -/
theorem surfaces_surface {u m' : Machine} {passed : List Entry} {ended : Fault × Machine}
    (hended : u.surface c (thrownValue c m.heap).1 { m.traceAt (some span) with frames := callees passed } = ended)
    (hheap : u.heap = (thrownValue c m.heap).2) (hlog : u.log = m.log)
    (hm' : m'.heap = ended.2.heap ∧ m'.log = ended.2.log ∧ m'.lastException = ended.2.lastException) :
    Surfaces m c span (thrownValue c m.heap).1 passed ended.1 m' := by
  subst hended
  obtain ⟨hheap', hlog', hlast'⟩ := hm'
  refine ⟨?_, fun hne => ?_, rfl, ⟨_, rfl, ?_⟩, hlast'⟩
  · rintro y rfl
    exact congrArg (fun h => Cause.uncaught (y.message h)) hheap
  · cases c with
    | thrown y => exact absurd rfl (hne y)
    | _ => rfl
  · rw [hlog', hheap', ← hlog]
    rfl

/-- The machine back at the frame that was passed last, if one was. -/
def backAt (m : Machine) (last : Option Frame) : Machine := (last.map m.atFrame).getD m

/-- **Unwinding finds exactly the right handler**, for every stack, every error that scripts may catch and
every machine. If the topmost entry that stops the error is a try region, the machine goes on there with what
lay below the region, the delivered value on top, and nothing else has changed. If it is the frame of a host
call, the machine stands where that frame says, with what lay below it; its state stays. If there is neither,
the stack is empty and the machine has failed. In these two cases the error surfaces. -/
theorem unwinding_exact (m : Machine) (c : Cause) (span : Span) (hc : c.isCatchable = true) :
    ∃ x h, Delivers c m.heap x h ∧
      (∀ above r below, Topmost m.stack.entries above (.region r) below →
        m.handle c span = (none, { m with
          heap := h, stack := (Stack.ofList below).push (.value x)
          sectionIndex := r.sectionIndex, pc := r.handlerPc, env := r.env })) ∧
      (∀ above f below, Topmost m.stack.entries above (.frame f) below →
        ∃ fault m', m.handle c span = (some fault, m') ∧ Surfaces m c span x (above ++ [.frame f]) fault m' ∧
          m' = { m with
            heap := h, stack := .ofList below, sectionIndex := f.returnSection, pc := f.returnPc, env := f.env
            log := m'.log, lastException := m'.lastException }) ∧
      ((∀ a ∈ m.stack.entries, a.letsPass = true) →
        ∃ fault m', m.handle c span = (some fault, m') ∧ Surfaces m c span x m.stack.entries fault m' ∧
          m' = { m.backAt (m.stack.entries.filterMap Entry.frame?).getLast? with
            heap := h, stack := .empty, state := .error, log := m'.log, lastException := m'.lastException }) ∧
      ((∃ above e below, Topmost m.stack.entries above e below) ∨ ∀ a ∈ m.stack.entries, a.letsPass = true) := by
  refine ⟨_, _, delivers_thrownValue c m.heap, fun above r below h => ?_, fun above f below h => ?_, fun h => ?_,
    exists_topmost _⟩
  · rw [handle_catchable hc, unwind_region h]
    rfl
  · rw [handle_catchable hc, unwind_host h]
    exact ⟨_, _, rfl, surfaces_surface rfl rfl rfl ⟨rfl, rfl, rfl⟩, rfl⟩
  · rw [handle_catchable hc, unwind_bottom h]
    cases (m.stack.entries.filterMap Entry.frame?).getLast? with
    | none => exact ⟨_, _, rfl, surfaces_surface rfl rfl rfl ⟨rfl, rfl, rfl⟩, rfl⟩
    | some f => exact ⟨_, _, rfl, surfaces_surface rfl rfl rfl ⟨rfl, rfl, rfl⟩, rfl⟩

/-- A host called `f` while a script was inside a try region, and `f` called `g`, where a loop has begun. With
`inside`, the call of `g` stands in a try region of `f`. -/
def nested (inside : List Entry) : Machine :=
  { load { sections := #[⟨"<script>", #[]⟩, ⟨"f", #[]⟩, ⟨"g", #[]⟩] } {} {} {} with
    state := .paused
    sectionIndex := 2
    pc := 7
    stack := .ofList <| [.value .null, .loop ⟨4⟩, .frame ⟨1, 5, ⟨3⟩, "g", false⟩] ++ inside ++
      [.value .null, .frame ⟨0, 9, ⟨1⟩, "f", true⟩, .region ⟨0, 20, none, ⟨0⟩⟩] }

/-- The region of `f` handles an error of `g`. Without it the error comes to the host, although the script
that is interrupted by the call has a region: the frame of `f` lies above that, and all below it stays. -/
theorem unwinding_exact_nested :
    (Cause.undefinedVariable "x").isCatchable = true ∧
    (∃ h id, (nested [.region ⟨1, 30, none, ⟨2⟩⟩]).handle (.undefinedVariable "x") (.point 3 1) =
      (none, { nested [.region ⟨1, 30, none, ⟨2⟩⟩] with
        heap := h
        stack := .ofList [.value (.error id "undefined variable: x"), .value .null, .frame ⟨0, 9, ⟨1⟩, "f", true⟩,
          .region ⟨0, 20, none, ⟨0⟩⟩]
        sectionIndex := 1, pc := 30, env := ⟨2⟩ })) ∧
    ∃ fault m', (nested []).handle (.undefinedVariable "x") (.point 3 1) = (some fault, m') ∧
      fault.cause = .undefinedVariable "x" ∧ fault.trace = some ⟨some "g", some (3, 1), ["g", "f"]⟩ ∧
      m'.stack.entries = [.region ⟨0, 20, none, ⟨0⟩⟩] ∧ m'.sectionIndex = 0 ∧ m'.pc = 9 ∧ m'.state = .paused := by
  have hinside : Topmost (nested [.region ⟨1, 30, none, ⟨2⟩⟩]).stack.entries
      [.value .null, .loop ⟨4⟩, .frame ⟨1, 5, ⟨3⟩, "g", false⟩] (.region ⟨1, 30, none, ⟨2⟩⟩)
      [.value .null, .frame ⟨0, 9, ⟨1⟩, "f", true⟩, .region ⟨0, 20, none, ⟨0⟩⟩] := ⟨rfl, by decide, rfl⟩
  have houtside : Topmost (nested []).stack.entries
      [.value .null, .loop ⟨4⟩, .frame ⟨1, 5, ⟨3⟩, "g", false⟩, .value .null] (.frame ⟨0, 9, ⟨1⟩, "f", true⟩)
      [.region ⟨0, 20, none, ⟨0⟩⟩] := ⟨rfl, by decide, rfl⟩
  refine ⟨rfl, ?_, ?_⟩
  · obtain ⟨x, h, hx, hregion, -⟩ := unwinding_exact (nested [.region ⟨1, 30, none, ⟨2⟩⟩]) (.undefinedVariable "x")
      (.point 3 1) rfl
    obtain ⟨rfl, -⟩ := hx.raised nofun
    exact ⟨h, _, hregion _ _ _ hinside⟩
  · obtain ⟨x, h, -, -, hhost, -⟩ := unwinding_exact (nested []) (.undefinedVariable "x") (.point 3 1) rfl
    obtain ⟨fault, m', hhandle, hsurfaces, hm'⟩ := hhost _ _ _ houtside
    refine ⟨fault, m', hhandle, hsurfaces.raised nofun, hsurfaces.trace, ?_⟩
    rw [hm']
    exact ⟨rfl, rfl, rfl, rfl⟩

end Machine

end ScriptMachine
