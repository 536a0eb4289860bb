import ScriptMachine.Proofs.Compile.Classes
import ScriptMachine.Proofs.Compile.Faithful
import ScriptMachine.Proofs.Machine.Relocation
import ScriptMachine.Proofs.Native.Splitting
import ScriptMachine.Proofs.Value.Hidden

/-!
# Instances — what `new` makes of a declaration

A function that belongs to a class has a mangled name, from which the name of the method is read back. Whatever the
names are, the functions of an entry are found by their places in the table, and the prefix that is taken off is the one
that was put on (`methodOf?_function`); so a new object has the methods of the declaration and nothing else, the last one
of each name (`Script.instances_exact`).
-/

namespace ScriptMachine

/-! ### Scopes that are filled at once -/

/-- Bindings written one after the other. -/
def overlay (vars binds : List (String × Value)) : List (String × Value) :=
  binds.foldl (fun vars b => insertBinding b.1 b.2 vars) vars

theorem lookup_overlay (vars binds : List (String × Value)) (name : String) :
    (overlay vars binds).lookup name = (binds.reverse.lookup name).or (vars.lookup name) := by
  induction binds using List.reverseRecOn with
  | nil => rfl
  | append_singleton binds b ih =>
    have hlast : overlay vars (binds ++ [b]) = insertBinding b.1 b.2 (overlay vars binds) := List.foldl_concat _ _ _ _
    rw [hlast, lookup_insertBinding, ih, List.reverse_append, List.reverse_singleton, List.singleton_append,
      List.lookup_cons]
    by_cases hname : name = b.1
    · simp [hname]
    · simp [hname, beq_false_of_ne hname]

theorem names_insertBinding {name : String} {v : Value} {vars : List (String × Value)} {n : String}
    (h : n ∈ (insertBinding name v vars).map Prod.fst) : n = name ∨ n ∈ vars.map Prod.fst := by
  induction vars with
  | nil => exact .inl (by simpa [insertBinding] using h)
  | cons b rest ih =>
    unfold insertBinding at h
    split at h
    · exact (List.mem_cons.1 h).imp_right (List.mem_cons_of_mem _)
    · rcases List.mem_cons.1 h with rfl | h
      · exact .inr List.mem_cons_self
      · exact (ih h).imp_right (List.mem_cons_of_mem _)

theorem nodup_insertBinding {name : String} {v : Value} {vars : List (String × Value)}
    (h : (vars.map Prod.fst).Nodup) : ((insertBinding name v vars).map Prod.fst).Nodup := by
  induction vars with
  | nil => exact List.nodup_singleton name
  | cons b rest ih =>
    obtain ⟨hb, hrest⟩ := List.nodup_cons.1 h
    unfold insertBinding
    split
    · rename_i hname
      exact List.nodup_cons.2 ⟨hname ▸ hb, hrest⟩
    · rename_i hname
      exact List.nodup_cons.2 ⟨fun hmem => (names_insertBinding hmem).elim hname hb, ih hrest⟩

/-- A name is bound once, however often it was written. -/
theorem nodup_overlay {vars : List (String × Value)} (h : (vars.map Prod.fst).Nodup) (binds : List (String × Value)) :
    ((overlay vars binds).map Prod.fst).Nodup := by
  induction binds generalizing vars with
  | nil => exact h
  | cons b rest ih => exact ih (nodup_insertBinding h)

namespace Heap

/-- Where the next object is made. -/
def nextObject (h : Heap) : ObjectId := ⟨h.objects.size⟩

/-- Where the next scope is made. -/
def nextScope (h : Heap) : ScopeId := ⟨h.scopes.size⟩

theorem scope_defineAll (h : Heap) {s : ScopeId} (hs : s.index < h.scopes.size) (t : ScopeId)
    (binds : List (String × Value)) : (h.defineAll s binds).scope t =
      if t = s then { h.scope s with vars := overlay (h.scope s).vars binds } else h.scope t := by
  induction binds generalizing h with
  | nil =>
    split
    · rename_i ht
      rw [ht]
      rfl
    · rfl
  | cons b rest ih =>
    rw [defineAll, ih _ (by rwa [size_define])]
    simp only [scope_define _ _ _ _ _ hs, if_true]
    split <;> rfl

/-- A scope that was made last, and filled. -/
theorem scope_filled {h h' : Heap} {new : Scope} (hpush : h'.scopes = h.scopes.push new) (binds : List (String × Value))
    (t : ScopeId) : (h'.defineAll h.nextScope binds).scope t =
      if t = h.nextScope then { new with vars := overlay new.vars binds } else h.scope t := by
  have hnew : ∀ t, h'.scope t = if t = h.nextScope then new else h.scope t := by
    intro t
    have hscope : h'.scope t = (h.newScope new).2.scope t := by
      rw [scope, hpush]
      rfl
    rw [hscope, scope_newScope]
    by_cases ht : t = h.nextScope
    · rw [if_pos ht, if_pos (show t.index = h.scopes.size from congrArg ScopeId.index ht)]
    · rw [if_neg ht, if_neg fun hindex => ht (congrArg ScopeId.mk hindex)]
  rw [scope_defineAll _ (by rw [hpush, Array.size_push]; exact Nat.lt_succ_self _), hnew, hnew, if_pos rfl]
  split <;> rfl

end Heap

namespace Machine

/-! ### Arguments -/

/-- Parameters are bound to the arguments in order; a missing one is `undefined`, and what is left is dropped. -/
theorem bindParams_eq (params : List String) (args : List Value) :
    bindParams params args = params.zip (args ++ List.replicate (params.length - args.length) .undefined) := by
  induction params generalizing args with
  | nil => rfl
  | cons name rest ih =>
    cases args with
    | nil => simpa [bindParams, List.replicate_succ] using ih []
    | cons v args => simp [bindParams, ih args]

end Machine

/-! ### Methods by their names -/

/-- The prefix that a class puts in front of the name of a method is taken off again. -/
theorem methodOf?_function (c : String) (i : Nat) (m : Method) : (m.function c i).methodOf? c = some m.name := by
  have hdrop : Text.dropBeginning? ('@' :: c.toList ++ ['.']) (m.function c i).name.toList = some m.name.toList :=
    Text.dropBeginning?_eq_some_iff.2 (by simp [Method.function, ScriptFunction.methodName])
  rw [ScriptFunction.methodOf?, hdrop]
  simp

/-- The last method of a name, among methods with the places of their functions. -/
def IsLast (methods : List (Method × Nat)) (name : String) (m : Method) (i : Nat) : Prop :=
  m.name = name ∧ ∃ before after, methods = before ++ (m, i) :: after ∧ ∀ x ∈ after, x.1.name ≠ name

namespace IsLast

variable {methods : List (Method × Nat)} {name : String} {m : Method} {i : Nat}

/-- The last one of a longer list. -/
theorem append_singleton {x : Method × Nat} :
    IsLast (methods ++ [x]) name m i ↔
      (x.1.name = name ∧ x = (m, i)) ∨ (x.1.name ≠ name ∧ IsLast methods name m i) := by
  constructor
  · rintro ⟨hname, before, after, heq, hafter⟩
    rcases List.eq_nil_or_concat after with rfl | ⟨after, y, rfl⟩
    · obtain ⟨-, hx⟩ := List.append_inj' heq rfl
      cases hx
      exact .inl ⟨hname, rfl⟩
    · rw [List.concat_eq_append, ← List.cons_append, ← List.append_assoc] at heq
      obtain ⟨rfl, hx⟩ := List.append_inj' heq rfl
      cases hx
      exact .inr ⟨hafter x (by simp), hname, before, after, rfl, fun y hy => hafter y (by simp [hy])⟩
  · rintro (⟨hname, rfl⟩ | ⟨hother, hname, before, after, rfl, hafter⟩)
    · exact ⟨hname, methods, [], rfl, nofun⟩
    · refine ⟨hname, before, after ++ [x], by simp, fun y hy => ?_⟩
      rcases List.mem_append.1 hy with hy | hy
      · exact hafter y hy
      · rw [List.mem_singleton.1 hy]
        exact hother

/-- Looking from the end, the last method of a name is found. -/
theorem iff_lookup {β : Type} (value : Method × Nat → β) {v : β} :
    (methods.map fun x => (x.1.name, value x)).reverse.lookup name = some v ↔
      ∃ m i, IsLast methods name m i ∧ v = value (m, i) := by
  induction methods using List.reverseRecOn with
  | nil =>
    refine ⟨nofun, ?_⟩
    rintro ⟨m, i, ⟨-, before, after, heq, -⟩, -⟩
    simp at heq
  | append_singleton methods x ih =>
    rw [List.map_append, List.reverse_append, List.map_singleton, List.reverse_singleton, List.singleton_append,
      List.lookup_cons]
    by_cases hname : x.1.name = name
    · simp only [hname, beq_self_eq_true, append_singleton, ne_eq, not_true_eq_false, false_and, or_false, true_and]
      constructor
      · intro heq
        cases heq
        exact ⟨x.1, x.2, rfl, rfl⟩
      · rintro ⟨m, i, rfl, rfl⟩
        rfl
    · simp only [beq_false_of_ne (Ne.symm hname), append_singleton, hname, false_and, false_or, ne_eq,
        not_false_eq_true, true_and]
      exact ih

end IsLast

section Entry

variable {script : Script} {p : Program} {c : String} {ms : List Method} {indices : List Nat}

/-- The methods that the program finds for a class are those that were installed, in order. -/
theorem Script.Installs.named (h : List.Forall₂ (script.Installs p c) ms indices) :
    Machine.namedMethods c (indices.filterMap fun i => p.functions[i]?.map (i, ·)) =
      (ms.zip indices).map fun x => (x.1.name, x.2, x.1.function c x.2) := by
  induction h with
  | nil => rfl
  | @cons m i ms indices hm _ ih =>
    rw [List.filterMap_cons, hm.function]
    simp only [Option.map_some, Machine.namedMethods, List.filterMap_cons, methodOf?_function, List.zip_cons_cons,
      List.map_cons]
    rw [← ih]
    rfl

end Entry

namespace Machine

/-! ### New objects -/

/-- The fields of a new object are where the next scope is made, and all other scopes stay. -/
theorem scope_newInstance (c : String) (globals : ScopeId) (fields : List (String × Value)) (h : Heap) (t : ScopeId) :
    (newInstance c globals fields h).2.scope t =
      if t = h.nextScope then { vars := overlay [] fields, parent := some globals, owner := some h.nextObject }
      else h.scope t := by
  have hfields : (h.newObject c globals).2.fields (h.newObject c globals).1 = h.nextScope :=
    (Heap.fields_newObject h c globals _).trans (if_pos rfl)
  have hpush : (h.newObject c globals).2.scopes =
      h.scopes.push { parent := some globals, owner := some h.nextObject } := rfl
  rw [newInstance, hfields]
  exact Heap.scope_filled hpush fields t

theorem objects_newInstance (c : String) (globals : ScopeId) (fields : List (String × Value)) (h : Heap) :
    (newInstance c globals fields h).2.objects = h.objects.push ⟨c, h.nextScope⟩ :=
  objects_defineAll _ _ _

theorem size_newInstance (c : String) (globals : ScopeId) (fields : List (String × Value)) (h : Heap) :
    (newInstance c globals fields h).2.scopes.size = h.scopes.size + 1 := by
  rw [newInstance, Heap.size_defineAll]
  simp [Heap.newObject, Heap.newScope]

/-- A function that an object receives runs in a scope inside the fields of the object. -/
theorem scope_enterFunction (f : ScriptFunction) (o : ObjectId) (args : List Value) (m : Machine) (t : ScopeId) :
    (enterFunction f (some (.object o)) args false m).heap.scope t =
      if t = m.heap.nextScope then
        { vars := overlay [] ((thisName, .object o) :: bindParams f.params args), parent := some (m.heap.fields o) }
      else m.heap.scope t :=
  have hpush : (m.heap.newChild (m.heap.fields o)).2.scopes =
      m.heap.scopes.push { parent := some (m.heap.fields o) } := rfl
  Heap.scope_filled hpush ((thisName, .object o) :: bindParams f.params args) t

/-- A heap gains an object of a class, which has the last method of each name and nothing else. All other objects have
the fields they had. -/
structure Gains (c : String) (globals : ScopeId) (methods : List (Method × Nat)) (h h' : Heap) : Prop where
  object : h'.objects = h.objects.push ⟨c, h.nextScope⟩
  around : (h'.scope h.nextScope).parent = some globals
  owner : (h'.scope h.nextScope).owner = some h.nextObject
  once : ((h'.scope h.nextScope).vars.map Prod.fst).Nodup
  bound : ∀ name v, (h'.scope h.nextScope).vars.lookup name = some v ↔
    ∃ method i, IsLast methods name method i ∧ v = .function (.declared i) (method.function c i)
  kept : ∀ s, s.index < h.scopes.size → h'.scope s = h.scope s
  others : h.Founded → ∀ o, o ≠ h.nextObject → h'.fields o = h.fields o ∧ h'.scope (h'.fields o) = h.scope (h.fields o)

section Gains

variable {c : String} {globals : ScopeId} {methods : List (Method × Nat)} {h h' : Heap}

theorem lt_nextScope {s : ScopeId} (hs : s.index < h.scopes.size) : s ≠ h.nextScope := fun heq =>
  Nat.lt_irrefl _ (heq ▸ hs : h.nextScope.index < h.scopes.size)

theorem fields_push (hobjects : h'.objects = h.objects.push ⟨c, h.nextScope⟩) {o : ObjectId} (ho : o ≠ h.nextObject) :
    h'.fields o = h.fields o := by
  have hindex : o.index ≠ h.objects.size := fun hindex => ho (congrArg ObjectId.mk hindex)
  rw [Heap.fields, hobjects, Array.getElem?_push, if_neg hindex]
  rfl

/-- The fields are filled with the methods in order, so the last one of a name stays. -/
theorem Gains.newInstance {fields : List (String × Value)}
    (hfields : fields = methods.map fun x => (x.1.name, .function (.declared x.2) (x.1.function c x.2))) :
    Gains c globals methods h (Machine.newInstance c globals fields h).2 := by
  have hobjects := objects_newInstance c globals fields h
  have hscope := scope_newInstance c globals fields h
  have hold : ∀ s, s.index < h.scopes.size → (Machine.newInstance c globals fields h).2.scope s = h.scope s :=
    fun s hs => (hscope s).trans (if_neg (lt_nextScope hs))
  have hnew := (hscope h.nextScope).trans (if_pos rfl)
  refine ⟨hobjects, by rw [hnew], by rw [hnew], ?_, fun name v => ?_, hold, fun hf o ho => ?_⟩
  · rw [hnew]
    exact nodup_overlay (show (([] : List (String × Value)).map Prod.fst).Nodup from List.nodup_nil) fields
  · rw [hnew, lookup_overlay, hfields, List.lookup_nil, Option.or_none]
    exact IsLast.iff_lookup fun x => Value.function (.declared x.2) (x.1.function c x.2)
  · have heq := fields_push hobjects ho
    exact ⟨heq, by rw [heq, hold _ (hf o)]⟩

/-- A scope that is made later changes nothing about it. -/
theorem Gains.later {h'' : Heap} (hg : Gains c globals methods h h') (hsize : h.scopes.size < h'.scopes.size)
    (hobjects : h''.objects = h'.objects) (hscope : ∀ s, s ≠ h'.nextScope → h''.scope s = h'.scope s) :
    Gains c globals methods h h'' := by
  have hsame : ∀ s, s.index < h'.scopes.size → h''.scope s = h'.scope s := fun s hs => hscope s (lt_nextScope hs)
  have hnext := hsame h.nextScope hsize
  refine ⟨hobjects.trans hg.object, by rw [hnext, hg.around], by rw [hnext, hg.owner], by rw [hnext]; exact hg.once,
    fun name v => by rw [hnext, hg.bound], fun s hs => ?_, fun hf o ho => ?_⟩
  · rw [hsame s (Nat.lt_trans hs hsize), hg.kept s hs]
  · have heq := fields_push (hobjects.trans hg.object) ho
    exact ⟨heq, by rw [heq, hsame _ (Nat.lt_trans (hf o) hsize), hg.kept _ (hf o)]⟩

end Gains

/-- A method of a new object begins to run with the object as its receiver: its parameters are bound in order, a missing
argument is `undefined`, and what is left is dropped. Of two parameters with one name the last one counts. -/
structure Begins (c : String) (method : Method) (i : Nat) (args : List Value) (rest : List Entry) (m m' : Machine) :
    Prop where
  machine : m' = { m with heap := m'.heap, env := m'.env, sectionIndex := i + 1, pc := 0 }.onStack
    (.frame { returnSection := m.sectionIndex, returnPc := m.pc, env := m.env,
              callee := ScriptFunction.methodName c method.name, fromHost := false } :: rest)
  fresh : m.heap.scopes.size < m'.env.index
  around : (m'.heap.scope m'.env).parent = some m.heap.nextScope
  bound : ∀ name, (m'.heap.scope m'.env).vars.lookup name = ((thisName, .object m.heap.nextObject) ::
    method.params.zip (args ++ List.replicate (method.params.length - args.length) .undefined)).reverse.lookup name

/-- What `new` makes of a machine: the heap gains an object, whose last constructor begins to run, or which is pushed if
there is none. -/
structure Makes (c : String) (methods : List (Method × Nat)) (args : List Value) (rest : List Entry) (m m' : Machine) :
    Prop where
  gains : Gains c m.globals methods m.heap m'.heap
  pushed : (∀ x ∈ methods, x.1.name ≠ Compile.constructorName) →
    m' = { m with heap := m'.heap }.onStack (.value (.object m.heap.nextObject) :: rest)
  entered : ∀ method i, IsLast methods Compile.constructorName method i → Begins c method i args rest m m'

/-- The function of a method is entered. -/
theorem begins_enterFunction {c : String} {methods : List (Method × Nat)} {m : Machine} {h : Heap}
    (hg : Gains c m.globals methods m.heap h) (hsize : h.scopes.size = m.heap.scopes.size + 1) (method : Method)
    (i : Nat) (args : List Value) (rest : List Entry) : Begins c method i args rest m
      (enterFunction (method.function c i) (some (.object m.heap.nextObject)) args false
        ({ m with heap := h }.onStack rest)) := by
  have hscope := (scope_enterFunction (method.function c i) m.heap.nextObject args ({ m with heap := h }.onStack rest)
    h.nextScope).trans (if_pos rfl)
  have hfields : h.fields m.heap.nextObject = m.heap.nextScope := by
    simp [Heap.fields, hg.object, Heap.nextObject]
  refine ⟨rfl, ?_, ?_, fun name => ?_⟩
  · show m.heap.scopes.size < h.scopes.size
    omega
  · exact (congrArg Scope.parent hscope).trans (congrArg some hfields)
  · refine (congrArg (fun scope => scope.vars.lookup name) hscope).trans ?_
    rw [lookup_overlay, List.lookup_nil, Option.or_none, bindParams_eq]
    rfl

theorem lookup_eq_find? {β : Type} (l : List (String × β)) (name : String) :
    l.lookup name = (l.find? (·.1 == name)).map Prod.snd := by
  induction l with
  | nil => rfl
  | cons x rest ih =>
    rw [List.lookup_cons, List.find?_cons]
    by_cases hname : name = x.1
    · simp [hname]
    · simp [beq_false_of_ne hname, beq_false_of_ne (Ne.symm hname), ih]

/-- The functions of an entry make an object of a class. -/
theorem makes_instantiated {m : Machine} {c : String} {methods : List (Method × Nat)}
    {found : List (Nat × ScriptFunction)} (hfound : m.program.classMethods? c = some found)
    (hnamed : namedMethods c found = methods.map fun x => (x.1.name, x.2, x.1.function c x.2))
    (rest : List Entry) (args : List Value) :
    ∃ m', instantiated m rest c args = .ok none m' ∧ Makes c methods args rest m m' := by
  have hfields : methodFields (namedMethods c found) = methods.map fun x =>
      (x.1.name, Value.function (.declared x.2) (x.1.function c x.2)) := by
    rw [hnamed, methodFields, List.map_map]
    rfl
  have hgains : Gains c m.globals methods m.heap
      (newInstance c m.globals (methodFields (namedMethods c found)) m.heap).2 := .newInstance hfields
  have hsize := size_newInstance c m.globals (methodFields (namedMethods c found)) m.heap
  have hlast : ∀ method i, IsLast methods Compile.constructorName method i →
      ((namedMethods c found).reverse.find? (·.1 == Compile.constructorName)).map Prod.snd =
        some (i, method.function c i) := by
    intro method i hlast
    rw [← lookup_eq_find?, hnamed]
    exact (IsLast.iff_lookup fun x => (x.2, x.1.function c x.2)).2 ⟨method, i, hlast, rfl⟩
  unfold instantiated
  rw [hfound]
  simp only
  cases hfind : (namedMethods c found).reverse.find? (·.1 == Compile.constructorName) with
  | none =>
    refine ⟨_, rfl, hgains, fun _ => rfl, fun method i hmethod => ?_⟩
    rw [hfind] at hlast
    cases hlast method i hmethod
  | some found =>
    obtain ⟨name, j, f⟩ := found
    simp only
    have hmade : Gains c m.globals methods m.heap (enterFunction f (some (.object m.heap.nextObject)) args false
        ({ m with heap := (newInstance c m.globals (methodFields (namedMethods c found)) m.heap).2 }.onStack
          rest)).heap :=
      hgains.later (by rw [hsize]; exact Nat.lt_succ_self _) (objects_defineAll _ _ _) fun s hs =>
        (scope_enterFunction f m.heap.nextObject args _ s).trans (if_neg hs)
    refine ⟨_, rfl, hmade, fun hnone => ?_, fun method i hmethod => ?_⟩
    · have hlookup := lookup_eq_find? (namedMethods c found).reverse Compile.constructorName
      rw [hfind, hnamed] at hlookup
      obtain ⟨method, i, ⟨hname, before, after, rfl, -⟩, -⟩ :=
        (IsLast.iff_lookup fun x => (x.2, x.1.function c x.2)).1 hlookup
      exact absurd hname (hnone (method, i) (by simp))
    · have hfound := hlast method i hmethod
      rw [hfind] at hfound
      obtain ⟨rfl, rfl⟩ := Prod.mk.inj (Option.some.inj hfound)
      exact begins_enterFunction hgains hsize method j args rest

end Machine

/-- **A new object has exactly the methods of its class.** Whatever its name and those of its methods are, a class of a
script that compiles has an outermost declaration: every other one lies in a method of it, and there is no other if the
script declares no class twice. Its methods were compiled to functions of the program. In any machine that runs the
program, `new` makes an object with the last method of each name, and nothing else; it begins with the last constructor,
if there is one. -/
theorem Script.instances_exact {script : Script} {p : Program} (hc : script.compile = .ok p) {c : String}
    {ms₀ : List Method} (hnode : .stmt (.class c ms₀) ∈ script.nodes) :
    ∃ ms indices, .stmt (.class c ms) ∈ script.nodes ∧
      (∀ ms', .stmt (.class c ms') ∈ script.nodes → ms' = ms ∨ .stmt (.class c ms') ∈ methodsNodes ms) ∧
      ((declaredClasses script.nodes).Nodup → ms = ms₀) ∧ List.Forall₂ (script.Installs p c) ms indices ∧
      ∀ (m : Machine) (i : Instruction) (args : List Value) (rest : List Entry), m.program = p →
        i.op = .createObject c args.length →
        ∃ m', Machine.dispatch i (m.onStack (Machine.pushed args rest)) = .ok none m' ∧
          Machine.Makes c (ms.zip indices) args rest m m' := by
  obtain ⟨ms, indices, hentry, ⟨hdeclared, x, pc, e, span, hplace, hpiece⟩, houtermost⟩ := Script.exists_entry hc hnode
  have hinstalls := hplace.installs hc hpiece
  refine ⟨ms, indices, hdeclared, houtermost, fun hnodup => eq_of_nodup hnodup hdeclared hnode, hinstalls,
    fun m i args rest hp hop => ?_⟩
  rw [Machine.dispatch_createObject hop]
  refine Machine.makes_instantiated ?_ (Script.Installs.named hinstalls) rest args
  rw [hp, Program.classMethods?, hentry]
  rfl

/-- `class A { constructor(x, y) {} m() {} m(z) {} }` -/
def Script.repeating : Script :=
  { body := [.node .unknown (.class "A"
      [.node "constructor" ["x", "y"] [], .node "m" [] [], .node "m" ["z"] []])] }

/-- The object has the second method of the two, and its constructor lacks an argument. -/
theorem Script.instances_exact_repeating : ∃ p i j m', repeating.compile = .ok p ∧
    p.functions[i]? = some ⟨"@A.constructor", i + 1, 2, ["x", "y"]⟩ ∧ p.functions[j]? = some ⟨"@A.m", j + 1, 1, ["z"]⟩ ∧
    Machine.dispatch { op := .createObject "A" 1 }
      ((Machine.load p {} {} {}).onStack (Machine.pushed [.bool true] [])) = .ok none m' ∧
    (m'.heap.scope ⟨1⟩).vars.lookup "m" = some (.function (.declared j) ⟨"@A.m", j + 1, 1, ["z"]⟩) ∧
    m'.sectionIndex = i + 1 ∧ (m'.heap.scope m'.env).vars.lookup "x" = some (.bool true) ∧
    (m'.heap.scope m'.env).vars.lookup "y" = some .undefined := by
  have hnode : .stmt (.class "A" [.node "constructor" ["x", "y"] [], .node "m" [] [], .node "m" ["z"] []]) ∈
      repeating.nodes := List.mem_cons_self
  obtain ⟨p, hp⟩ := repeating.accepted_iff.2 ⟨rfl, by decide, by decide, by decide⟩
  obtain ⟨ms, indices, -, -, honly, hinstalls, hmakes⟩ := instances_exact hp hnode
  obtain rfl := honly (by decide)
  cases hinstalls with | @cons _ i _ indices hi hrest =>
  cases hrest with | @cons _ k _ indices hk hrest =>
  cases hrest with | @cons _ j _ indices hj hrest =>
  cases hrest
  obtain ⟨m', hdispatch, hgains, -, hentered⟩ := hmakes (Machine.load p {} {} {}) { op := .createObject "A" 1 }
    [.bool true] [] rfl rfl
  have hbegins := hentered (.node "constructor" ["x", "y"] []) i
    ⟨rfl, [], _, rfl, by simp [Method.name, Compile.constructorName]⟩
  refine ⟨p, i, j, m', hp, hi.function, hj.function, hdispatch, (hgains.bound "m" _).2 ?_, ?_, hbegins.bound "x",
    hbegins.bound "y"⟩
  · exact ⟨.node "m" ["z"] [], j, ⟨rfl, [(.node "constructor" ["x", "y"] [], i), (.node "m" [] [], k)], [], rfl, nofun⟩,
      rfl⟩
  · rw [hbegins.machine]
    rfl

/-- `class A { m() { class A { n() {} } } }` -/
def Script.overshadowing : Script :=
  { body := [.node .unknown (.class "A" [.node "m" [] [.node .unknown (.class "A" [.node "n" [] []])]])] }

/-- Whether a compiled script makes, of a class, an object that has no method of some name. -/
def Script.makesWithout (script : Script) (c name : String) : Bool :=
  match script.compile with
  | .ok p =>
    match Machine.dispatch { op := .createObject c 0 } ((Machine.load p {} {} {}).onStack []) with
    | .ok none m' => !(m'.heap.scope (Machine.load p {} {} {}).heap.nextScope).defines name
    | _ => false
  | .error _ => false

theorem Script.dispatch_of_makesWithout {script : Script} {c name : String} (h : script.makesWithout c name = true) :
    ∃ p m', script.compile = .ok p ∧
      Machine.dispatch { op := .createObject c 0 } ((Machine.load p {} {} {}).onStack []) = .ok none m' ∧
      (m'.heap.scope (Machine.load p {} {} {}).heap.nextScope).defines name = false := by
  unfold Script.makesWithout at h
  split at h
  · rename_i p hc
    split at h
    · rename_i m' hdispatch
      exact ⟨p, m', hc, hdispatch, by simpa using h⟩
    · cases h
  · cases h

/-- Of two classes with one name, of which one lies in the other, the objects have the methods of the outer one. -/
theorem Script.instances_overshadowed : ¬ ∀ (script : Script) (p : Program) (c : String) (ms : List Method),
    script.compile = .ok p → .stmt (.class c ms) ∈ script.nodes →
    ∀ (m m' : Machine) (i : Instruction) (args : List Value) (rest : List Entry), m.program = p →
      i.op = .createObject c args.length → Machine.dispatch i (m.onStack (Machine.pushed args rest)) = .ok none m' →
      ∀ name, (m'.heap.scope m.heap.nextScope).defines name = true ↔ ∃ method ∈ ms, method.name = name := by
  intro h
  have hwithout : overshadowing.makesWithout "A" "n" = true := by
    decide +kernel
  obtain ⟨p, m', hc, hdispatch, hlacks⟩ := dispatch_of_makesWithout hwithout
  have hinner : .stmt (.class "A" [.node "n" [] []]) ∈ overshadowing.nodes := .tail _ (.head _)
  have hdefines := (h overshadowing p "A" _ hc hinner (Machine.load p {} {} {}) m'
    { op := .createObject "A" 0 } [] [] rfl rfl hdispatch "n").2 ⟨_, List.mem_cons_self, rfl⟩
  rw [hlacks] at hdefines
  cases hdefines

end ScriptMachine
