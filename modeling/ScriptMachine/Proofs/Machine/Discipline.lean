import ScriptMachine.Proofs.Machine.Service

/-!
# Discipline — compiled scripts keep the promises of the machine

The layout of a compiled script (`Script.exists_layout`) and the requests of a host (`Service`) put
together. Two results: no request to a machine that runs a compiled script ever reports a broken
promise, and what lies on the stack of such a machine depends on the place of the machine only.
-/

namespace ScriptMachine

open Compile

namespace Regime

/-- The host hands in no function but those of the program, and keeps its own promises. -/
def closed (p : Program) : Regime := ⟨fun f => f ∈ p.functions, True⟩

/-- The host does whatever it likes. -/
def free : Regime := ⟨fun _ => True, False⟩

/-- The host hands in no function that runs the script itself. -/
def sealed : Regime := ⟨fun f => f.sectionIndex ≠ 0, False⟩

end Regime

variable {script : Script} {p : Program} {R : Regime} {T : Nat → Nat → Shape} {m : Machine}

/-- The script has at least its end. -/
theorem Script.script_inRange (hc : script.compile = .ok p) : (p.instruction? 0 0).isSome = true := by
  obtain ⟨hsection, -⟩ := Script.sections_of_compile hc
  have hlast : script.draft.1 ≠ [] := by
    rw [show script.draft.1 = (stmts { body := .script } script.body {}).1 ++ emit .unknown [.eof] from rfl]
    exact List.append_ne_nil_of_right_ne_nil _ (List.cons_ne_nil _ _)
  have hpos := List.length_pos_of_ne_nil hlast
  rw [Program.instruction?, hsection]
  simp [hpos]

/-- Constants of a compiled program bring no function in. -/
theorem Script.admits_constants (hc : script.compile = .ok p) (R : Regime) :
    ∀ v ∈ p.constants, R.Admits v :=
  fun _ hv => Regime.admits_of (Script.constants_of_compile hc hv)

/-- No function of a compiled program runs the script. -/
theorem Script.not_enters_script (hc : script.compile = .ok p) (hs : script.sparesIndexer = true)
    (hT : Laid p T) : ¬ (⟨Regime.closed p, p, T, hT⟩ : Ground).Enters 0 := by
  rintro ⟨f, hf, hzero⟩
  exact (Script.functions_of_compile hc hs hf).1 hzero

theorem Script.ready_closed (hc : script.compile = .ok p) (hs : script.sparesIndexer = true)
    (hT : Laid p T) : (⟨Regime.closed p, p, T, hT⟩ : Ground).Ready := by
  rintro - x (rfl | ⟨f, hf, rfl⟩)
  · exact Script.script_inRange hc
  · exact (Script.functions_of_compile hc hs hf).2

/-! ### No broken promises -/

/-- An instruction that a machine of the ground fetches finds what it needs. -/
theorem Machine.Fits.keeps_promises {G : Ground} {hosted : Bool} (hf : Machine.Fits G hosted m)
    (hstrict : G.regime.strict) {i : Instruction} (hi : m.program.instruction? m.sectionIndex m.pc = some i)
    (b : Breach) (m' : Machine) :
    Machine.dispatch i { m with cycles := m.cycles + 1, pc := m.pc + 1 } ≠ .error (.invariant b) m' := by
  intro hd
  have hset := @Machine.dispatch_settles G hosted { m with cycles := m.cycles + 1, pc := m.pc + 1 } i m.pc
    rfl hf.program (hf.sound.of_heap rfl rfl hf.sound.heap) (hf.program ▸ hi) hf.stands
  rw [hd] at hset
  exact hset.1.kept hstrict b rfl

/-- **Compiled scripts keep the promises of the machine.** Whatever a host asks of a machine that runs
a compiled script, in whatever order, no request reports a broken promise; and wherever a run comes,
there is an instruction, and it breaks none. -/
theorem Script.compiled_keeps_promises (hc : script.compile = .ok p) (hs : script.sparesIndexer = true) :
    (∀ m request cause m', (Regime.closed p).Reaches p m → (Regime.closed p).Permits m request →
      m.serve request = some (some cause, m') → ∀ b, cause ≠ .invariant b) ∧
    ∀ m, (Regime.closed p).Visits p m → ∃ i, p.instruction? m.sectionIndex m.pc = some i ∧
      ∀ b m', Machine.dispatch i { m with cycles := m.cycles + 1, pc := m.pc + 1 } ≠
        .error (.invariant b) m' := by
  obtain ⟨T, hT, -⟩ := Script.exists_layout hc hs
  have hready := Script.ready_closed hc hs hT
  have hzero := Script.not_enters_script hc hs hT
  have hconstants := Script.admits_constants hc (Regime.closed p)
  constructor
  · intro m request cause m' hr hp hserve b he
    have hi := Machine.reaches_idle hready (fun _ => hzero) (fun _ hf => hf) hconstants hr
    exact (Machine.serve_idle hready (fun _ => hzero) hi hp hserve).2 trivial b (congrArg some he)
  · intro m hv
    obtain ⟨hosted, hf⟩ := Machine.visits_fits hready (fun _ => hzero) (fun _ hf => hf) hconstants hv
    obtain ⟨i, hi⟩ := Option.isSome_iff_exists.1 (hf.range hready trivial)
    refine ⟨i, hi, hf.keeps_promises trivial ?_⟩
    rw [hf.program]
    exact hi

/-- A loop that is left through a handler, a `continue` and a final part, and then an exception that
nobody catches. -/
def Script.retrying : Script :=
  { body := [
      .node .unknown (.var "go" (some (.node .unknown (.bool true)))),
      .node .unknown (.while (.node .unknown (.ident "go")) (.node .unknown (.try
        [.node .unknown (.throw (.node .unknown (.string "again")))]
        (some (.clause (some "e") [
          .node .unknown (.expr (.node .unknown (.assign none (.node .unknown (.ident "go"))
            (.node .unknown (.bool false))))),
          .node .unknown .continue]))
        (some [.node .unknown (.expr (.node .unknown (.assign none (.node .unknown (.ident "go"))
          (.node .unknown .null))))])))),
      .node .unknown (.throw (.node .unknown (.string "end")))] }

/-- A machine that has run nothing yet, with some globals. -/
def Machine.fresh (p : Program) (globals : List (String × Value)) : Machine :=
  globals.foldl (fun m b => m.defineGlobal b.1 b.2) (Machine.load p {} {} {})

theorem Regime.reaches_fresh (R : Regime) (p : Program) {globals : List (String × Value)}
    (hg : ∀ b ∈ globals, R.Admits b.2) : R.Reaches p (Machine.fresh p globals) := by
  unfold Machine.fresh
  have hload : R.Reaches p (Machine.load p {} {} {}) := .load ⟨nofun, nofun, nofun⟩ nofun
  generalize Machine.load p {} {} {} = m at hload
  induction globals generalizing m with
  | nil => exact hload
  | cons b rest ih =>
    have hdefine : m.serve (.define b.1 b.2) = some (none, m.defineGlobal b.1 b.2) := rfl
    have hadmits : R.Permits m (.define b.1 b.2) := hg b List.mem_cons_self
    exact ih (fun b' hb' => hg b' (List.mem_cons_of_mem _ hb')) _ (hload.serve hadmits hdefine)

/-- How a run of a script ends: whether it fails, the state and the depth of the stack. -/
def Script.outcome (script : Script) (globals : List (String × Value)) : Option (Bool × RunState × Nat) :=
  match script.compile with
  | .ok p => ((Machine.fresh p globals).serve (.run 100)).map fun (cause, m) =>
      (cause.isSome, m.state, m.stack.depth)
  | .error _ => none

theorem Script.outcome_serve {globals : List (String × Value)} {failed : Bool} {state : RunState}
    {depth : Nat} (h : script.outcome globals = some (failed, state, depth)) :
    ∃ p cause m, script.compile = .ok p ∧ (Machine.fresh p globals).serve (.run 100) = some (cause, m) ∧
      cause.isSome = failed ∧ m.state = state ∧ m.stack.depth = depth := by
  unfold Script.outcome at h
  split at h
  · rename_i p hc
    obtain ⟨⟨cause, m⟩, hserve, he⟩ := Option.map_eq_some_iff.1 h
    cases he
    exact ⟨p, cause, m, hc, hserve, rfl, rfl, rfl⟩
  · cases h

theorem Script.outcome_retrying : Script.retrying.outcome [] = some (true, .error, 0) := by
  decide +kernel

theorem Script.compiled_keeps_promises_retrying : ∃ p cause m',
    Script.retrying.compile = .ok p ∧ (Regime.closed p).Reaches p (Machine.fresh p []) ∧
    (Machine.fresh p []).serve (.run 100) = some (some cause, m') ∧ (∀ b, cause ≠ .invariant b) ∧
    ∃ i, p.instruction? 0 0 = some i ∧ ∀ b m', Machine.dispatch i
      { Machine.fresh p [] with state := .running, cycles := 1, pc := 1 } ≠ .error (.invariant b) m' := by
  obtain ⟨p, cause, m', hc, hserve, hfailed, -⟩ := Script.outcome_serve Script.outcome_retrying
  obtain ⟨cause, rfl⟩ := Option.isSome_iff_exists.1 hfailed
  have hreach : (Regime.closed p).Reaches p (Machine.fresh p []) := Regime.reaches_fresh _ p nofun
  obtain ⟨hrequests, hruns⟩ := Script.compiled_keeps_promises hc (by decide +kernel)
  refine ⟨p, cause, m', hc, hreach, hserve, hrequests _ (.run 100) _ _ hreach trivial hserve, ?_⟩
  exact hruns { Machine.fresh p [] with state := .running }
    ⟨Machine.fresh p [], .run, _, true, hreach, .execute nofun nofun, .start⟩

/-! ### The layout of the stack -/

/-- The values that a call or a creation takes off the stack. -/
def Opcode.operands? : Opcode → Option Nat
  | .call argc isMethod => some (argc + if isMethod then 2 else 1)
  | .createObject _ argc => some argc
  | _ => none

/-- The kinds of the entries on the stack at each place of a compiled script. -/
structure Script.LaysOut (script : Script) (p : Program) (layout : Nat → Nat → List EntryKind) : Prop where
  /-- Wherever a run or a call comes, these entries lie above the topmost frame. -/
  above : ∀ m, Regime.free.Visits p m →
    (m.stack.entries.takeWhile fun e => e.kind != .frame).map Entry.kind = layout m.sectionIndex m.pc
  /-- In the script itself they are all that lies on the stack, unless a function runs the script. -/
  bottom : ∀ m, Regime.sealed.Visits p m → m.sectionIndex = 0 →
    m.stack.entries.map Entry.kind = layout 0 m.pc
  done : ∀ m, Regime.sealed.Reaches p m → m.state = .done → m.stack.depth = 0
  /-- Nothing lies on the stack between the statements of the script, or at its end. -/
  seams : ∀ before after, script.body = before ++ after → layout 0 (Script.seam before) = []
  eof : ∀ x pc i, p.instruction? x pc = some i → i.op = .eof → layout x pc = []
  /-- A statement anywhere ends with the entries with which it begins. -/
  statements : ∀ x s, p.sections[x]? = some s → ∃ L, script.Lists x L ∧ L.code = s.code.toList ∧
    ∀ r ∈ L.statements 0, layout x r.1 = layout x r.2
  /-- A call or a creation that returns leaves one value for its operands. -/
  calls : ∀ x pc i n, p.instruction? x pc = some i → i.op.operands? = some n → ∃ below,
    layout x pc = List.replicate n .value ++ below ∧ layout x (pc + 1) = .value :: below

/-- The kinds of slots. -/
def Compile.Shape.kinds (σ : Shape) : List EntryKind := σ.slots.map Slot.kind

theorem Compile.kinds_values (n : Nat) (s : List Slot) :
    (values n s).map Slot.kind = List.replicate n .value ++ s.map Slot.kind := by
  simp [values, Slot.kind]

theorem Compile.Step.operands {P : Plan} {op : Opcode} {σ τ : Shape} (h : Step P op σ τ) {n : Nat}
    (hn : op.operands? = some n) :
    ∃ below, σ.kinds = List.replicate n .value ++ below ∧ τ.kinds = .value :: below := by
  cases h with
  | @call argc k s =>
    cases hn
    exact ⟨s.map Slot.kind, congrArg (EntryKind.value :: ·) (kinds_values argc s), rfl⟩
  | @callMethod argc k s =>
    cases hn
    have hkinds := kinds_values argc s
    exact ⟨s.map Slot.kind, congrArg (EntryKind.value :: EntryKind.value :: ·) hkinds, rfl⟩
  | @createObject c argc k s =>
    obtain rfl : argc = n := Option.some.inj hn
    exact ⟨s.map Slot.kind, kinds_values argc s, rfl⟩
  | _ => cases hn

/-- The entries of the script lie on the bottom of the stack if no function runs it. -/
theorem Machine.Fits.kinds_script {G : Ground} {hosted : Bool} (hf : Machine.Fits G hosted m)
    (hzero : ¬ G.Enters 0) (hx : m.sectionIndex = 0) :
    m.stack.entries.map Entry.kind = (G.layout 0 m.pc).kinds := by
  obtain ⟨base, es, rest, he, hl, -, hb⟩ := hf.stands
  rw [hx] at hb hl
  cases hb with
  | host _ _ h => exact absurd h hzero
  | call _ h => exact absurd h hzero
  | bottom => rw [he, List.append_nil, hl.kinds, Shape.kinds]

/-- **The layout of compiled code is static**: what lies on the stack depends on the place of the
machine only, whichever way led there. -/
theorem Script.exists_static_layout (hc : script.compile = .ok p) (hs : script.sparesIndexer = true) :
    ∃ layout, script.LaysOut p layout := by
  obtain ⟨T, hT, hstatements, hseams⟩ := Script.exists_layout hc hs
  have hconstants := Script.admits_constants hc
  have hready : ∀ R : Regime, ¬ R.strict → (⟨R, p, T, hT⟩ : Ground).Ready := fun R h h' => absurd h' h
  have hzero : ¬ (⟨Regime.sealed, p, T, hT⟩ : Ground).Enters 0 := fun ⟨f, hf, h⟩ => hf h
  have hfunctions : ∀ f ∈ p.functions, Regime.sealed.allows f := fun f hf =>
    (Script.functions_of_compile hc hs hf).1
  refine ⟨fun x pc => (T x pc).kinds, fun m hv => ?_, fun m hv hx => ?_, fun m hr hdone => ?_,
    fun before after hb => ?_, fun x pc i hi heof => ?_, fun x s hx => ?_, fun x pc i n hi hn => ?_⟩
  · obtain ⟨hosted, hf⟩ := Machine.visits_fits (G := ⟨Regime.free, p, T, hT⟩) (hready _ id) nofun
      (fun _ _ => trivial) (hconstants _) hv
    exact hf.stands.kinds
  · obtain ⟨hosted, hf⟩ := Machine.visits_fits (G := ⟨Regime.sealed, p, T, hT⟩) (hready _ id) nofun
      hfunctions (hconstants _) hv
    exact hf.kinds_script hzero hx
  · have hi := Machine.reaches_idle (G := ⟨Regime.sealed, p, T, hT⟩) (hready _ id) nofun
      hfunctions (hconstants _) hr
    rw [m.stack.depth_eq, hi.done hdone hzero]
    rfl
  · simp only [hseams before after hb]
    rfl
  · obtain ⟨J, hstep, -⟩ := hT.step hi
    rw [heof] at hstep
    generalize T x pc = σ at hstep
    cases hstep
    rfl
  · obtain ⟨L, hL, hcode, hranges⟩ := hstatements x s hx
    exact ⟨L, hL, hcode, fun r hr => congrArg Shape.kinds (hranges r hr)⟩
  · obtain ⟨J, hstep, -⟩ := hT.step hi
    exact hstep.operands hn

theorem Script.exists_static_layout_retrying : ∃ p layout, Script.retrying.compile = .ok p ∧
    Script.retrying.LaysOut p layout ∧ layout 0 0 = [] := by
  obtain ⟨p, _, _, hc, -⟩ := Script.outcome_serve Script.outcome_retrying
  obtain ⟨layout, hlayout⟩ := Script.exists_static_layout hc (by decide +kernel)
  have hstart := hlayout.above { Machine.fresh p [] with state := .running }
    ⟨Machine.fresh p [], .run, _, true, Regime.reaches_fresh _ p nofun, .execute nofun nofun, .start⟩
  exact ⟨p, layout, hc, hlayout, hstart.symm⟩

/-- `if (x) { x = false; f(); }` -/
def Script.rerunning : Script :=
  { body := [.node .unknown (.cond (.node .unknown (.ident "x"))
      (.node .unknown (.block [
        .node .unknown (.expr (.node .unknown (.assign none (.node .unknown (.ident "x"))
          (.node .unknown (.bool false))))),
        .node .unknown (.expr (.node .unknown (.call (.node .unknown (.ident "f")) [])))]))
      none)] }

/-- A host that hands in a function which runs the script. -/
def Script.rerun : List (String × Value) :=
  [("x", .bool true), ("f", .function (.made 0) ⟨"f", 0, 0, []⟩)]

/-- A function that the host hands in may run the script, and then the script ends inside a call, with
the frame of that call on the stack. -/
theorem Script.done_inside_call : ¬ ∀ (script : Script) (p : Program) (m : Machine),
    script.compile = .ok p → script.sparesIndexer = true → Regime.free.Reaches p m → m.state = .done →
    m.stack.depth = 0 := by
  intro h
  have houtcome : Script.rerunning.outcome Script.rerun = some (false, .done, 1) := by decide +kernel
  obtain ⟨p, cause, m, hc, hserve, -, hstate, hdepth⟩ := Script.outcome_serve houtcome
  have hfresh : Regime.free.Reaches p (Machine.fresh p Script.rerun) :=
    Regime.reaches_fresh _ p fun _ _ _ _ _ => trivial
  have hpermits : Regime.free.Permits (Machine.fresh p Script.rerun) (.run 100) := trivial
  have hreach : Regime.free.Reaches p m := hfresh.serve hpermits hserve
  have hzero := h Script.rerunning p m hc (by decide +kernel) hreach hstate
  rw [hdepth] at hzero
  cases hzero

end ScriptMachine
