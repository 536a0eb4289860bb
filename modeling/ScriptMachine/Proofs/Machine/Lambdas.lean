import ScriptMachine.Proofs.Compile.Naming
import ScriptMachine.Proofs.Machine.Discipline
import ScriptMachine.Proofs.Machine.Hygiene
import ScriptMachine.Proofs.Value.Writes

/-!
# Lambdas — what a function expression gives

The code of a function expression reads a name, and the name is looked up like any other: first in the scopes around,
then among the functions of the program. A script that binds no reserved name gives it to no scope but the fields of
objects. So a function expression gives its own function, unless the fields of the object that receives the call have a
property of its name.
-/

namespace ScriptMachine

open Compile

/-- The next instruction of a machine puts a value on the stack and does nothing else. -/
def Machine.Gives (m : Machine) (v : Value) : Prop :=
  ∃ i, m.program.instruction? m.sectionIndex m.pc = some i ∧
    dispatch i m.fetching = .ok none { m.fetching with stack := m.stack.push (.value v) }

theorem Machine.gives_fetch {m : Machine} {i : Instruction} {name : String} {v : Value}
    (hi : m.program.instruction? m.sectionIndex m.pc = some i) (hop : i.op = .fetch name)
    (hv : m.lookup name = .ok v) : m.Gives v := by
  refine ⟨i, hi, ?_⟩
  have hfetch := dispatch_fetch (m := m.fetching) (s := m.stack.entries) hop
  rw [show m.fetching.lookup name = m.lookup name from rfl, hv] at hfetch
  have hsame : m.fetching = m.fetching.onStack m.stack.entries := eq_onStack rfl
  have hpush : m.stack.push (.value v) = .ofList (.value v :: m.stack.entries) := Stack.ext rfl
  rw [← hsame] at hfetch
  rw [hfetch, hpush]
  rfl

/-- An instruction puts one value on the stack. -/
theorem Machine.Gives.unique {m : Machine} {v w : Value} (hv : m.Gives v) (hw : m.Gives w) : v = w := by
  obtain ⟨i, hi, hv⟩ := hv
  obtain ⟨j, hj, hw⟩ := hw
  obtain rfl : i = j := Option.some.inj (hi.symm.trans hj)
  rw [hv] at hw
  obtain ⟨-, hnext⟩ := EStateM.Result.ok.inj hw
  exact Entry.value.inj (Option.some.inj (congrArg (·.stack.top?) hnext))

/-- A name has the value of the nearest scope that defines it. -/
theorem Heap.resolve?_of_definer? {h : Heap} {e s : ScopeId} {n : String} (hn : n ≠ thisName)
    (hs : h.definer? (h.chain e) n = some s) : ∃ v, h.getLocal? s n = some v ∧ h.resolve? e n = some v := by
  obtain ⟨hdefines, inner, outer, hchain, hinner⟩ := definer?_eq_some hs
  obtain ⟨v, hv⟩ := getLocal?_of_defines h hdefines
  have hnone : inner.findSome? (h.getLocal? · n) = none :=
    List.findSome?_eq_none_iff.2 fun t ht => getLocal?_of_not_defines h (hinner t ht) (.inl hn)
  refine ⟨v, hv, ?_⟩
  rw [resolve?, hchain, List.findSome?_append, hnone, Option.none_or, List.findSome?_cons, hv]

section Scripts

variable {script : Script} {p : Program} {m w : Machine} {e : Emission} {span : Span} {name : Option String}
  {params : List String} {ss : List Stmt}

theorem lambdaName_ne_thisName (name : Option String) (k : Nat) : lambdaName name k ≠ thisName := by
  intro he
  have hreserved := reserved_lambdaName name k
  rw [he] at hreserved
  exact absurd hreserved (by decide)

/-- A program avoids the names of function expressions, unless they are called like an operand that is kept. -/
theorem Script.avoids_lambdaName (hc : script.compile = .ok p) (hplain : script.plainNames = true)
    (hname : name ≠ some "parked") (k : Nat) : p.Avoids (lambdaName name k) where
  functions f hf hmem := by
    have hfree := Script.plain_params hc hplain hf _ hmem
    rw [reserved_lambdaName] at hfree
    cases hfree
  constants v hv := ⟨Value.within_of_portable (Machine.portable_constants hc v hv), Script.admits_constants hc _ v hv⟩
  declares x pc i hi hop := by
    rcases Script.declares hc hi hop with ⟨n, hn, hmem⟩ | hslot | ⟨d, hparked⟩
    · have hfree := Script.plainNames.not_reserved hplain hn hmem
      rw [reserved_lambdaName] at hfree
      cases hfree
    · exact lambdaName_ne_returnSlot name k hslot
    · exact hname (eq_parked_of_lambdaName hparked)
  this := lambdaName_ne_thisName name k

/-- Only fields have the name of a function expression. -/
theorem Attended.hygienic_lambdaName (hm : Attended p m) (hc : script.compile = .ok p)
    (hplain : script.plainNames = true) {request : Request} (homits : ∀ n, reserved n = true → request.Omits n m)
    (hw : w ∈ request.course m) (hname : name ≠ some "parked") (k : Nat) : w.Hygienic p (lambdaName name k) :=
  hm.course_hygienic (Script.avoids_lambdaName hc hplain hname k) (reserved_lambdaName _ _)
    (homits _ (reserved_lambdaName _ _)) hw

/-- The function of a function expression, under its name in the program. -/
theorem Script.Emitted.function? (hc : script.compile = .ok p) (hplain : script.plainNames = true) {x pc : Nat}
    (he : script.Emitted x pc e) (hpiece : e.piece = .kind span (.function name params ss))
    (hmethods : ∀ n ∈ script.nodes, lambdaName name e.before.lambdas ∉ n.methodNames) :
    p.function? (lambdaName name e.before.lambdas) =
      some (.function (.declared e.before.bodies.size) (e.compiled name params)) := by
  rw [Program.function?, he.functionIndex hc hplain hpiece hmethods, Option.bind_some, Program.functionValue?,
    (he.lambda_section hc hpiece).2.1, Option.map_some]

/-- **A function expression gives its own function**: whenever its code is executed, in a script that binds no reserved
name and for a host that does not either, it puts the function on the stack that was compiled from this expression, with
its parameters and the section of its statements. This fails if fields on the chain have the name of the expression, if
a method has a mangled name that reads the same, and it can fail if the expression is called like an operand that is
kept. A scope that has the name gives its value instead. -/
theorem Script.lambda_gives (hc : script.compile = .ok p) (hplain : script.plainNames = true)
    (hm : Attended p m) {request : Request} (homits : ∀ n, reserved n = true → request.Omits n m)
    (hw : w ∈ request.course m) (he : script.Emitted w.sectionIndex w.pc e)
    (hpiece : e.piece = .kind span (.function name params ss)) :
    (p.functions[e.before.bodies.size]? = some (e.compiled name params) ∧
      ∃ e', script.Emitted (e.compiled name params).sectionIndex 0 e' ∧
        e'.piece = .stmts { body := .function } ss) ∧
    (name ≠ some "parked" → (∀ n ∈ script.nodes, lambdaName name e.before.lambdas ∉ n.methodNames) →
      (∀ s ∈ w.heap.chain w.env, (w.heap.scope s).isBound = true →
        (w.heap.scope s).defines (lambdaName name e.before.lambdas) = false) →
      w.Gives (.function (.declared e.before.bodies.size) (e.compiled name params))) ∧
    ∀ s, w.heap.definer? (w.heap.chain w.env) (lambdaName name e.before.lambdas) = some s →
      ∃ v, w.heap.getLocal? s (lambdaName name e.before.lambdas) = some v ∧ w.Gives v := by
  obtain ⟨⟨i, hi, hop⟩, hfunction, hsection⟩ := he.lambda_section hc hpiece
  have hunnamed : (none : Option String) ≠ some "parked" := nofun
  have hprogram := (hm.hygienic_lambdaName hc hplain homits hw hunnamed 0).program
  rw [← hprogram] at hi
  refine ⟨⟨hfunction, hsection⟩, fun hname hmethods hfields => ?_, fun s hs => ?_⟩
  · have hclean := hm.hygienic_lambdaName hc hplain homits hw hname e.before.lambdas
    have hnone : w.heap.resolve? w.env (lambdaName name e.before.lambdas) = none := by
      refine List.findSome?_eq_none_iff.2 fun s hs => ?_
      have hdefines : (w.heap.scope s).defines (lambdaName name e.before.lambdas) = false := by
        rw [Bool.eq_false_iff]
        intro hdef
        have hbound := hclean.heap.names s hdef
        rw [hfields s hs hbound] at hdef
        cases hdef
      exact Heap.getLocal?_of_not_defines w.heap hdefines (.inl (lambdaName_ne_thisName _ _))
    refine Machine.gives_fetch hi hop ?_
    rw [Machine.lookup, hnone, hprogram, he.function? hc hplain hpiece hmethods]
  · obtain ⟨v, hlocal, hresolve⟩ := Heap.resolve?_of_definer? (lambdaName_ne_thisName _ _) hs
    refine ⟨v, hlocal, Machine.gives_fetch hi hop ?_⟩
    rw [Machine.lookup, hresolve]

end Scripts

/-! ### A property that gets in the way -/

/-- The names that a node writes out. -/
def Node.names : Node → List String
  | .expr (.ident name) => [name]
  | .expr (.record fields) => fields.map Prod.fst
  | .expr (.member _ property) => [property]
  | .expr (.new className _) => [className]
  | .expr (.function name params _) => name.toList ++ params
  | .stmt (.var name _) => [name]
  | .stmt (.try _ handler _) => handlerParam handler
  | .stmt (.function name params _) => name :: params
  | .stmt (.class name methods) => name :: methods.flatMap fun | .node method params _ => method :: params
  | _ => []

/-- Whether no name in a script is reserved. Keys that are computed are not names. -/
def Script.unreserved (script : Script) : Bool := script.nodes.all fun n => n.names.all fun name => !reserved name

/-- `class C { m() { out = (function () {}) == 5; this["@lambda#0"] = 5; } } var out; var o = new C(); o.m(); o.m();` -/
def Script.shadowing : Script :=
  { body := [
      .node .unknown (.class "C" [.node "m" [] [
        .node .unknown (.expr (.node .unknown (.assign none (.node .unknown (.ident "out"))
          (.node .unknown (.binary .eq (.node .unknown (.function none [] [])) (.node .unknown (.number 5))))))),
        .node .unknown (.expr (.node .unknown (.assign none
          (.node .unknown (.index (.node .unknown .this) (.node .unknown (.string "@lambda#0"))))
          (.node .unknown (.number 5)))))]]),
      .node .unknown (.var "out" none),
      .node .unknown (.var "o" (some (.node .unknown (.new "C" [])))),
      .node .unknown (.expr (.node .unknown (.call (.node .unknown (.member (.node .unknown (.ident "o")) "m")) []))),
      .node .unknown (.expr (.node .unknown (.call (.node .unknown (.member (.node .unknown (.ident "o")) "m")) [])))] }

/-- The code of the function expression begins the method. -/
theorem Script.shadowing_lambda : ∃ e span, Script.shadowing.Emitted 1 0 e ∧
    e.piece = .kind span (.function none [] []) ∧ e.before.lambdas = 0 ∧ e.before.bodies.size = 1 := by
  obtain ⟨L, hL, hcode⟩ := emits_draft Script.shadowing
  have hscript := Script.Emitted.script hL hcode
  generalize Script.shadowing.draft.2 = last at hL hscript
  unfold Script.shadowing at hL
  cases hL with | stmtsCons hL hR =>
  have hstmt := hscript.first (.stmtsCons hL hR)
  cases hL with | stmt hL =>
  have hclass := hstmt.first (.stmt hL)
  cases hL with
  | repeatedClass hold => cases hold
  | «class» hnew hL =>
  have hmethods := hclass.first (.class hnew hL)
  cases hL with | methodsCons hL hR =>
  have hmethod := hmethods.first (.methodsCons hL hR)
  cases hL with | body hL hF =>
  have hbody := hmethod.body hL hF
  cases hL with | stmtsCons hL hR =>
  have hstmt := hbody.first (.stmtsCons hL hR)
  cases hL with | stmt hL =>
  have hkind := hstmt.first (.stmt hL)
  cases hL with | exprStmt hL =>
  have hexpr := hkind.first (.exprStmt hL)
  cases hL with | expr hL =>
  have hassign := hexpr.first (.expr hL)
  cases hL with
  | constant hk => cases hk
  | badAssign ht => cases ht
  | assign hL hS =>
  have hexpr := hassign.first (.assign hL hS)
  cases hL with | expr hL =>
  have hequal := hexpr.first (.expr hL)
  cases hL with
  | constant hk => cases hk
  | binary hL hR =>
  have hexpr := hequal.first (.binary hL hR)
  cases hL with | expr hL =>
  exact ⟨_, _, hexpr.first (.expr hL), rfl, rfl, rfl⟩

/-- A host that does nothing but load a program. -/
theorem Attended.bare (p : Program) : Attended p (Machine.load p {} {} {}) :=
  .load (fun _ _ => ⟨Heap.closed_empty, nofun, ⟨nofun, nofun, nofun⟩, nofun, fun s hs => by
    simp [Heap.scope, Scope.defines] at hs⟩) nofun

/-- Whether a run comes to the beginning of the method in a state of some kind. -/
def Script.entersWith (script : Script) (test : Machine → Bool) : Bool :=
  match script.compile with
  | .ok p => ((Request.run 100).course (Machine.load p {} {} {})).any fun w =>
      w.sectionIndex == 1 && w.pc == 0 && test w
  | .error _ => false

theorem Script.entersWith_course {script : Script} {test : Machine → Bool} (h : script.entersWith test = true) : ∃ p w,
    script.compile = .ok p ∧ w ∈ (Request.run 100).course (Machine.load p {} {} {}) ∧ w.sectionIndex = 1 ∧ w.pc = 0 ∧
      test w = true := by
  unfold Script.entersWith at h
  split at h
  · rename_i p hc
    obtain ⟨w, hw, htest⟩ := List.any_eq_true.1 h
    simp only [Bool.and_eq_true, beq_iff_eq] at htest
    exact ⟨p, w, hc, hw, htest.1.1, htest.1.2, htest.2⟩
  · cases h

/-- The first time the object has no property of the name, and the function expression gives its own function. -/
theorem Script.lambda_gives_shadowing : ∃ p w, Script.shadowing.compile = .ok p ∧
    w ∈ (Request.run 100).course (Machine.load p {} {} {}) ∧ w.sectionIndex = 1 ∧ w.pc = 0 ∧
    p.functions[1]? = some ⟨"@lambda#0", 2, 0, []⟩ ∧ w.Gives (.function (.declared 1) ⟨"@lambda#0", 2, 0, []⟩) := by
  have hfirst : Script.shadowing.entersWith (fun w =>
      (w.heap.chain w.env).all fun s => !(w.heap.scope s).defines "@lambda#0") = true := by
    decide +kernel
  obtain ⟨p, w, hc, hw, hx, hpc, htest⟩ := Script.entersWith_course hfirst
  obtain ⟨e, span, he, hpiece, hlambdas, hbodies⟩ := Script.shadowing_lambda
  rw [← hx, ← hpc] at he
  have homits : ∀ n, reserved n = true → (Request.run 100).Omits n (Machine.load p {} {} {}) := fun _ _ => trivial
  obtain ⟨⟨hfunction, -⟩, hgives, -⟩ := Script.lambda_gives hc (by decide +kernel) (.bare p) homits hw he hpiece
  have hown : e.compiled none [] = ⟨"@lambda#0", 2, 0, []⟩ := by
    rw [Emission.compiled, hlambdas, hbodies]
    rfl
  rw [hbodies, hown] at hfunction hgives
  rw [hlambdas] at hgives
  have hmethods : ∀ n ∈ Script.shadowing.nodes, lambdaName none 0 ∉ n.methodNames := by
    have hall : Script.shadowing.nodes.all (fun n => !n.methodNames.contains (lambdaName none 0)) = true := by
      decide +kernel
    intro n hn hmem
    have hnot := List.all_eq_true.1 hall n hn
    rw [List.contains_iff_mem.2 hmem] at hnot
    cases hnot
  refine ⟨p, w, hc, hw, hx, hpc, hfunction, hgives nofun hmethods fun s hs _ => ?_⟩
  have hnot := List.all_eq_true.1 htest s hs
  exact (Bool.not_eq_true' _).mp hnot

/-- The second time the object has the property, and the function expression gives its value instead of a function. -/
theorem Script.lambda_shadowed : ¬ ∀ (script : Script) (p : Program) (m w : Machine) (request : Request) (e : Emission)
    (span : Span) (name : Option String) (params : List String) (ss : List Stmt), script.compile = .ok p →
    script.unreserved = true → Attended p m → (∀ n, reserved n = true → request.Omits n m) → w ∈ request.course m →
    script.Emitted w.sectionIndex w.pc e → e.piece = .kind span (.function name params ss) →
    w.Gives (.function (.declared e.before.bodies.size) (e.compiled name params)) := by
  intro h
  have hsecond : Script.shadowing.entersWith
      (fun w => (w.lookup "@lambda#0").toOption.any fun v => v.kind == .number) = true := by
    decide +kernel
  obtain ⟨p, w, hc, hw, hx, hpc, htest⟩ := Script.entersWith_course hsecond
  obtain ⟨e, span, he, hpiece, hlambdas, -⟩ := Script.shadowing_lambda
  rw [← hx, ← hpc] at he
  obtain ⟨i, hi, hop⟩ := (he.lambda_section hc hpiece).1
  have homits : ∀ n, reserved n = true → (Request.run 100).Omits n (Machine.load p {} {} {}) := fun _ _ => trivial
  have hunnamed : (none : Option String) ≠ some "parked" := (Option.some_ne_none _).symm
  have hclean := (Attended.bare p).hygienic_lambdaName hc (by decide +kernel) homits hw hunnamed 0
  have hown := h .shadowing p _ w _ e span none [] [] hc (by decide +kernel) (.bare p) homits hw he hpiece
  rw [hlambdas] at hop
  rw [← hclean.program] at hi
  cases hlookup : w.lookup "@lambda#0" with
  | error cause =>
    rw [hlookup] at htest
    cases htest
  | ok v =>
    rw [hlookup, ← hown.unique (Machine.gives_fetch hi hop hlookup)] at htest
    cases htest

end ScriptMachine
