import Mathlib.Logic.Relation
import ScriptMachine.Compile.Draft
import ScriptMachine.Proofs.Machine.Course
import ScriptMachine.Proofs.Value.Agree

/-!
# Stage — a machine beside the meaning of a script

A stage fixes what does not change while the code of a section runs: the world, the section, and the
base above which the run opens its scopes. `Shows` says that a machine stands at an instruction with
given entries and a heap that agrees with a given one, `Sees` that its scopes shadow those of the
script. Both survive what is quiet: steps that only add to the heap.
-/

namespace ScriptMachine

open Compile Heap

/-- What stays as it is while a section runs. -/
structure Stage where
  world : Machine
  sectionIndex : Nat
  base : Nat
  pool : Array Literal
  constants : world.program.constants = pool.mapIdx Literal.value
  labels : ∀ x pc i l, world.program.instruction? x pc = some i → i.op = .label l →
    world.program.jumpTarget? l = some pc
  discreet : world.hosts.Discreet base
  unlimited : world.config.maxCycles = none

namespace Machine

/-- Runs of any length that do not stop. -/
def Steps : Machine → Machine → Prop := Relation.ReflTransGen fun m m' => m.tick .run true = .next m'

/-- A run that comes to an error; `u` is the machine when the error arises. -/
def Raises (v : Machine) (c : Cause) (u : Machine) : Prop :=
  ∃ v' span, Steps v v' ∧ v'.tick .run true = u.routed c span

/-- A run that comes to an instruction which fails; `u` is the machine when the error arises. -/
def Faults (v : Machine) (c : Cause) (u : Machine) : Prop :=
  ∃ v' i, Steps v v' ∧ v'.exceeded? = none ∧ v'.program.instruction? v'.sectionIndex v'.pc = some i ∧
    dispatch i v'.fetching = .error c u

theorem Faults.raises {v u : Machine} {c : Cause} (hf : Faults v c u) : Raises v c u := by
  obtain ⟨v', i, hs, hlimit, hi, hd⟩ := hf
  exact ⟨v', i.span, hs, by rw [tick_of_instruction hlimit hi, hd]⟩

theorem Steps.faults {v v' u : Machine} {c : Cause} (hs : Steps v v') (hf : Faults v' c u) : Faults v c u := by
  obtain ⟨v'', i, hs', hrest⟩ := hf
  exact ⟨v'', i, hs.trans hs', hrest⟩

theorem Steps.raises {v v' u : Machine} {c : Cause} (hs : Steps v v') (hr : Raises v' c u) :
    Raises v c u := by
  obtain ⟨v'', span, hs', ht⟩ := hr
  exact ⟨v'', span, hs.trans hs', ht⟩

end Machine

open Machine

namespace Stage

variable (Z : Stage)

/-- Operations lie in the section from a place on. -/
def Has (pc : Nat) (ops : List Opcode) : Prop :=
  ∀ k op, ops[k]? = some op → ∃ i, Z.world.program.instruction? Z.sectionIndex (pc + k) = some i ∧ i.op = op

/-- A machine of the world. -/
structure Peer (v : Machine) : Prop where
  program : v.program = Z.world.program
  config : v.config = Z.world.config
  registry : v.registry = Z.world.registry
  hosts : v.hosts = Z.world.hosts
  globals : v.globals = Z.world.globals
  sectionIndex : v.sectionIndex = Z.sectionIndex

/-- A machine at a place of the section, with given entries on its stack. -/
structure Shows (pc : Nat) (entries : List Entry) (h : Heap) (v : Machine) : Prop extends Z.Peer v where
  pc : v.pc = pc
  entries : v.stack.entries = entries
  agrees : h.Agrees Z.base v.heap
  env : v.env.index < v.heap.scopes.size

/-- The scopes of a machine shadow those of the script. -/
structure Sees (names : List String) (env : ScopeId) (h : Heap) (v : Machine) : Prop where
  opened : env.index < h.scopes.size
  shadows : Shadows Z.base h names (h.chain env) (v.heap.chain v.env)

/-- Both heaps only grow, and the machine keeps its scope. -/
structure Quiet (h h' : Heap) (v v' : Machine) : Prop where
  script : Grows Z.base never h h'
  machine : Grows Z.base never v.heap v'.heap
  env : v'.env = v.env

/-- Hidden names that the current scope holds. -/
def Knows (known : List (String × Value)) (v : Machine) : Prop :=
  ∀ b ∈ known, reserved b.1 = true ∧ Private Z.base v.heap v.env ∧
    (v.heap.scope v.env).vars.lookup b.1 = some b.2

/-- A machine in which an error arises, above some entries. -/
structure Fails (entries : List Entry) (h : Heap) (u : Machine) : Prop extends Z.Peer u where
  entries : ∃ above, u.stack.entries = above ++ entries ∧
    ∀ e ∈ above, e.kind = .value ∨ e.kind = .loop
  agrees : h.Agrees Z.base u.heap

variable {Z} {pc : Nat} {A B ops : List Opcode} {op : Opcode} {S : List Entry} {h h' h'' : Heap}
  {v v' v'' u : Machine} {names : List String} {env : ScopeId} {known : List (String × Value)}

/-! ### Code -/

theorem Has.left (hc : Z.Has pc (A ++ B)) : Z.Has pc A := fun k op hk =>
  hc k op (by rw [List.getElem?_append_left (List.getElem?_eq_some_iff.1 hk).1]; exact hk)

theorem Has.right (hc : Z.Has pc (A ++ B)) : Z.Has (pc + A.length) B := fun k op hk => by
  rw [Nat.add_assoc]
  exact hc _ op (by rw [List.getElem?_append_right (Nat.le_add_right _ _), Nat.add_sub_cancel_left]; exact hk)

theorem Has.head (hc : Z.Has pc (op :: ops)) :
    ∃ i, Z.world.program.instruction? Z.sectionIndex pc = some i ∧ i.op = op := hc 0 op rfl

theorem Has.tail (hc : Z.Has pc (op :: ops)) : Z.Has (pc + 1) ops := hc.right (A := [op])

/-- A label stands where it is looked up. -/
theorem Has.target {l : Nat} (hc : Z.Has pc (.label l :: ops)) :
    Z.world.program.jumpTarget? l = some pc := by
  obtain ⟨i, hi, hop⟩ := hc.head
  exact Z.labels _ _ i l hi hop

/-! ### Machines -/

theorem Shows.onStack (hs : Z.Shows pc S h v) (T : List Entry) : Z.Shows pc T h (v.onStack T) :=
  ⟨⟨hs.program, hs.config, hs.registry, hs.hosts, hs.globals, hs.sectionIndex⟩, hs.pc, rfl,
    hs.agrees, hs.env⟩

theorem Shows.at (hs : Z.Shows pc S h v) (pc' : Nat) : Z.Shows pc' S h { v with pc := pc' } :=
  ⟨⟨hs.program, hs.config, hs.registry, hs.hosts, hs.globals, hs.sectionIndex⟩, rfl, hs.entries,
    hs.agrees, hs.env⟩

/-- The machine with another heap and another scope. -/
theorem Shows.moved {H : Heap} {e : ScopeId} (hs : Z.Shows pc S h v) (ha : h'.Agrees Z.base H)
    (he : e.index < H.scopes.size) : Z.Shows pc S h' { v with heap := H, env := e } :=
  ⟨⟨hs.program, hs.config, hs.registry, hs.hosts, hs.globals, hs.sectionIndex⟩, hs.pc,
    hs.entries, ha, he⟩

theorem Shows.fetching (hs : Z.Shows pc S h v) : Z.Shows (pc + 1) S h v.fetching :=
  ⟨⟨hs.program, hs.config, hs.registry, hs.hosts, hs.globals, hs.sectionIndex⟩,
    congrArg (· + 1) hs.pc, hs.entries, hs.agrees, hs.env⟩

/-- A machine within its limits executes the instruction at its place. -/
theorem Shows.tick (hs : Z.Shows pc S h v) (hc : Z.Has pc (op :: ops))
    (hroom : S.length ≤ Z.world.config.maxStack) : ∃ i, i.op = op ∧
      (∀ u, dispatch i v.fetching = .ok none u → Steps v u) ∧
      (∀ reason u, dispatch i v.fetching = .ok (some reason) u → v.tick .run true = .stop reason u) ∧
      ∀ c u, dispatch i v.fetching = .error c u → Faults v c u := by
  obtain ⟨i, hi, hop⟩ := hc.head
  have hlimit : v.exceeded? = none := by
    have hdepth : v.stack.depth = S.length := by rw [v.stack.depth_eq, hs.entries]
    simp only [exceeded?, hs.config, hdepth, if_neg (Nat.not_lt.2 hroom), Z.unlimited]
  have hinst : v.program.instruction? v.sectionIndex v.pc = some i := by
    rw [hs.program, hs.sectionIndex, hs.pc, hi]
  refine ⟨i, hop, fun u hu => .single ?_, fun reason u hu => ?_, fun c u hu => ⟨v, i, .refl, hlimit, hinst, hu⟩⟩ <;>
    rw [tick_of_instruction hlimit hinst, hu]

/-! ### Quiet steps -/

theorem Quiet.refl (h : Heap) (v : Machine) : Z.Quiet h h v v := ⟨.refl _ _ _, .refl _ _ _, rfl⟩

theorem Quiet.trans (hq : Z.Quiet h h' v v') (hq' : Z.Quiet h' h'' v' v'') : Z.Quiet h h'' v v'' :=
  ⟨hq.script.trans_same hq'.script, hq.machine.trans_same hq'.machine, hq'.env.trans hq.env⟩

theorem Sees.weaken {names' : List String} (hs : Z.Sees names env h v) (hn : names' ⊆ names) :
    Z.Sees names' env h v := ⟨hs.opened, hs.shadows.weaken hn⟩

/-- Scopes stay in step while both heaps grow elsewhere. -/
theorem Sees.grows {may may' : ScopeId → String → Prop} (hs : Z.Sees names env h v)
    (hsize : v.heap.scopes.size = h.scopes.size) (henv : v.env.index < v.heap.scopes.size)
    (hg : Grows Z.base may h h') (hG : Grows Z.base may' v.heap v'.heap) (he : v'.env = v.env)
    (hm : ∀ s ∈ v.heap.chain v.env, ∀ name ∈ names, ¬ may s name) : Z.Sees names env h' v' := by
  refine ⟨Nat.lt_of_lt_of_le hs.opened hg.size, ?_⟩
  rw [he, hG.chain henv, hg.chain hs.opened]
  exact hs.shadows.grows hg (fun s hs' => by have := le_of_mem_chain hs'; omega) hm

theorem Sees.quiet (hs : Z.Sees names env h v) (hshow : Z.Shows pc S h v) (hq : Z.Quiet h h' v v') :
    Z.Sees names env h' v' :=
  hs.grows hshow.agrees.size hshow.env hq.script hq.machine hq.env fun _ _ _ _ hf => hf

theorem Knows.quiet (hk : Z.Knows known v) (hshow : Z.Shows pc S h v) (hq : Z.Quiet h h' v v') :
    Z.Knows known v' := by
  intro b hb
  obtain ⟨hr, hp, hv⟩ := hk b hb
  rw [hq.env]
  refine ⟨hr, hq.machine.private hshow.env hp, ?_⟩
  rw [hq.machine.kept _ hshow.env hp _ hr id, hv]

/-! ### Names -/

/-- A name that the script mentions has the same value for the machine. -/
theorem lookup_eq {name : String} (hshow : Z.Shows pc S h v) (hs : Z.Sees names env h v)
    (hn : name ∈ names) (hr : reserved name = false) :
    v.lookup name = Machine.lookup { Z.world with env, heap := h } name := by
  have hresolve : v.heap.resolve? v.env name = h.resolve? env name :=
    hs.shadows.resolve hshow.agrees hn hr
  simp only [Machine.lookup, hresolve, hshow.program, hshow.registry]

theorem slot_eq {name : String} (hshow : Z.Shows pc S h v) (hs : Z.Sees names env h v)
    (hn : name ∈ names) (hr : reserved name = false) : v.heap.slot v.env name = h.slot env name := by
  simp only [Heap.slot, hs.shadows.definer hshow.agrees hn hr]

/-- A hidden name has the value that is known. -/
theorem Knows.lookup {name : String} {w : Value} (hk : Z.Knows known v) (hb : (name, w) ∈ known) :
    v.lookup name = .ok w := by
  obtain ⟨-, -, hw⟩ := hk _ hb
  obtain ⟨rest, hrest, -⟩ := v.heap.chain_eq_cons v.env
  have hresolve : v.heap.resolve? v.env name = some w := by
    rw [Heap.resolve?, hrest, List.findSome?_cons, Heap.getLocal?, Scope.get?, hw]
  simp only [Machine.lookup, hresolve]

end Stage

end ScriptMachine
