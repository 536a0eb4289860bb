import ScriptMachine.Proofs.Machine.Course
import ScriptMachine.Proofs.Machine.InStride

/-!
# CatchUp — the instructions that stand for one

Where code for dots has one instruction, code for brackets may have some, the last of which does what that one
does. A machine with code for brackets catches up with one that has executed the instruction (`CatchesUp`):
it comes to the last of its own and does the same there, unless the stack is full before.
-/

namespace ScriptMachine

open Compile

variable {P Q : Program}

namespace Machine

/-- Instructions that log nothing and go on to the next, as many as counted. -/
inductive Paces (mode : Mode) : Nat → Bool → Machine → Bool → Machine → Prop where
  | here {first m} : Paces mode 0 first m first m
  | next {k first b m m₁ m'} : m.tick mode first = .next m₁ → m₁.log = m.log → Paces mode k false m₁ b m' →
      Paces mode (k + 1) first m b m'

/-- The machine some instructions further on in its section. -/
def ahead (m : Machine) (k : Nat) : Machine := { m with cycles := m.cycles + k, pc := m.pc + k }

/-- The machine with a key on its stack. -/
def withKey (m : Machine) (name : String) : Machine := { m with stack := m.stack.push (.value (.string name)) }

/-- The machine with a value under a name in its scope. -/
def keeping (m : Machine) (slot : String) (v : Value) : Machine := { m with heap := m.heap.define m.env slot v }

theorem keeping_keeping (m : Machine) (slot : String) (v w : Value) :
    (m.keeping slot v).keeping slot w = m.keeping slot w := by
  simp only [keeping, Heap.define_define]

namespace Abreast

/-- A machine comes to the instruction that does what the other machine does, unless it comes to its limit. -/
inductive CatchesUp (X : Coupling P Q) (mode : Mode) (first : Bool) (i : Instruction) (m M : Machine) : Prop where
  | full {k b M₁} : k ≤ 3 → Paces mode k first M b M₁ → M₁.exceeded? ≠ none →
      M₁.stack.depth ≤ M.stack.depth + 1 → CatchesUp X mode first i m M
  | level {k b M₁ N i'} : k ≤ 3 → Paces mode k first M b M₁ → M₁.exceeded? = none →
      M₁.program.instruction? M₁.sectionIndex M₁.pc = some i' → ¬ (mode = .step ∧ i'.boundary ∧ !b) →
      i'.span = i.span → Ended X N (Resumes X) (dispatch i m.fetching) (dispatch i' M₁.fetching) →
      CatchesUp X mode first i m M

end Abreast

/-- Without a limit on instructions only the stack counts. -/
theorem exceeded?_eq_none {m : Machine} (hfree : m.config.maxCycles = none) :
    m.exceeded? = none ↔ m.stack.depth ≤ m.config.maxStack := by
  simp [exceeded?, hfree]

/-! ### Keys on the stack -/

/-- A machine within its limits that does not stop executes the instruction at its place. -/
theorem tick_eq {mode : Mode} {first : Bool} {m : Machine} {i : Instruction} (hlimit : m.exceeded? = none)
    (hi : m.program.instruction? m.sectionIndex m.pc = some i) (hgo : ¬ (mode = .step ∧ i.boundary ∧ !first)) :
    m.tick mode first = match dispatch i m.fetching with
      | .ok none m => .next m
      | .ok (some reason) m => .stop reason m
      | .error cause m => m.routed cause i.span := by
  simp only [tick, hlimit, hi, if_neg hgo]
  rfl

theorem tick_next {mode : Mode} {first : Bool} {m m' : Machine} {i : Instruction} (hlimit : m.exceeded? = none)
    (hi : m.program.instruction? m.sectionIndex m.pc = some i) (hgo : ¬ (mode = .step ∧ i.boundary ∧ !first))
    (hd : dispatch i m.fetching = .ok none m') : m.tick mode first = .next m' := by
  rw [tick_eq hlimit hi hgo, hd]

theorem pop_withKey (m : Machine) (name : String) : pop (m.withKey name) = .ok (.string name) m := by
  have hdrop : { m.withKey name with stack := (m.withKey name).stack.drop } = m := by
    simp only [withKey, Stack.drop_push]
  show (.ok (.string name) { m.withKey name with stack := (m.withKey name).stack.drop } :
    EStateM.Result Cause Machine Value) = _
  rw [hdrop]

variable {m : Machine} {span : Span} {b b' : Bool} {name : String} {n : Nat} {v : Value}

theorem propertyKey_withKey (m : Machine) (hname : name ≠ indexer) :
    propertyKey indexer (m.withKey name) = propertyKey name m := by
  rw [propertyKey, propertyKey, if_pos rfl, if_neg hname, pop_withKey]
  rfl

/-- Reading a property whose key is on the stack. -/
theorem dispatch_fetchKey (hname : name ≠ indexer) :
    dispatch ⟨.fetchProperty indexer, span, b⟩ (m.withKey name) = dispatch ⟨.fetchProperty name, span, b'⟩ m := by
  simp only [dispatch]
  rw [exec_bind, exec_bind, propertyKey_withKey m hname]

/-- Writing a property whose key is on the stack. -/
theorem dispatch_storeKey (hname : name ≠ indexer) :
    dispatch ⟨.storeProperty indexer, span, b⟩ (m.withKey name) = dispatch ⟨.storeProperty name, span, b'⟩ m := by
  simp only [dispatch]
  rw [exec_bind, exec_bind, propertyKey_withKey m hname]

theorem dispatch_constKey (hv : m.program.constants[n]? = some (.string name)) :
    dispatch ⟨.const n, span, b⟩ m = .ok none (m.withKey name) := by
  simp only [dispatch]
  rw [exec_bind_ok (show readsOrFails _ m = .ok (.string name) m by simp only [readsOrFails, hv])]
  rfl

theorem dispatch_slotKey {slot : String} (hv : m.heap.resolve? m.env slot = some (.string name)) :
    dispatch ⟨.fetch slot, span, b⟩ m = .ok none (m.withKey name) := by
  simp only [dispatch]
  rw [exec_bind_ok (show readsOrFails _ m = .ok (.string name) m by simp only [readsOrFails, lookup, hv])]
  rfl

/-- Keeping the key that is on the stack. -/
theorem dispatch_keepKey {slot : String} (hslot : m.heap.slot m.env slot = .ok m.env) :
    dispatch ⟨.store slot, span, b⟩ (m.withKey name) = .ok none (m.keeping slot (.string name)) := by
  simp only [dispatch]
  rw [exec_bind_ok (pop_withKey m name),
    exec_bind_ok (show readsOrFails _ m = .ok m.env m by simp only [readsOrFails, hslot])]
  rfl

namespace Abreast

variable {X : Coupling P Q} {N : Nooks} {m M : Machine} {cell : Cell} {mode : Mode} {first : Bool} {Γ Δ : List Lodge}

/-- The instructions that stand for one, in order. -/
theorem instruction? (hm : Abreast X N m M) (hcell : (X.sheet m.sectionIndex)[m.pc]? = some cell) {j : Nat}
    (hj : j < cell.twin.length) : M.program.instruction? M.sectionIndex (M.pc + j) = cell.twin[j]? := by
  rw [hm.program', X.bracketed, hm.sectionIndex, hm.pc]
  exact getElem?_place hcell hj

/-- Behind an instruction and behind those that stand for it. -/
theorem fetched (hm : Abreast X N m M) (hcell : (X.sheet m.sectionIndex)[m.pc]? = some cell)
    (hlodged : Heap.Lodged N m.heap M.heap (X.lodges m.sectionIndex (m.pc + 1)) m.env) :
    Abreast X N m.fetching (M.ahead cell.twin.length) := by
  have hplace : M.pc + cell.twin.length = X.place m.sectionIndex (m.pc + 1) := by
    rw [hm.pc]
    exact (place_succ hcell).symm
  exact { hm with pc := hplace, lodged := hlodged }

/-- Other heaps and other hidden scopes, with everything lodged as before. -/
theorem onGrounds (hm : Abreast X N m M) {N' : Nooks} {h' H' : Heap} (hg : Heap.Grounds X.pool N' h' H')
    (hl : ∀ {Γ s}, Heap.Lodged N m.heap M.heap Γ s → Heap.Lodged N' h' H' Γ s) :
    Abreast X N' { m with heap := h' } { M with heap := H' } := by
  refine { hm with grounds := hg, global := hl hm.global, lodged := hl hm.lodged, housed := fun e he => ?_ }
  have hhoused := hm.housed e he
  cases e with
  | value => trivial
  | frame f => exact ⟨hl hhoused.1, hhoused.2⟩
  | region r => exact ⟨hl hhoused.1, hhoused.2⟩
  | loop env => exact hl hhoused

/-- An operand is kept in a hidden scope. -/
theorem keep (hm : Abreast X N m M) {s : ScopeId} {ν : List Keep} (hN : N s = some ν) {k : Keep} (hk : k ∈ ν)
    (v : Value) : Abreast X N { m with heap := m.heap.define s k.dotted v }
      { M with heap := M.heap.define s k.bracketed (v.repooled X.pool) } :=
  hm.onGrounds (hm.grounds.keep hN hk v).1 (hm.grounds.keep hN hk v).2

variable {x : Nat} {l : Lodge} {k : Keep} {span span' : Span} {b b' : Bool}

/-- Keeping an operand that has been declared. -/
theorem tracks_keep (hk : k ∈ l.nook) (hd : k ∈ l.declared) :
    Tracks X N (At (X.Amid x (l :: Γ))) (Resumes X) (dispatch ⟨.store k.dotted, span, b⟩)
      (dispatch ⟨.store k.bracketed, span', b'⟩) := by
  simp only [dispatch]
  refine tracks_pop.onValue fun v m M hm hA => ?_
  have hlodged := hm.lodged
  rw [hA.2.2] at hlodged
  obtain ⟨w, hw, hw'⟩ := hlodged.kept hm.grounds hk hd
  have hslot := (Heap.resolve?_of_lookup hw).2
  have hslot' := (Heap.resolve?_of_lookup hw').2
  rw [← hm.env] at hslot'
  rw [exec_bind_ok (show readsOrFails (fun m => m.heap.slot m.env k.dotted) m = .ok m.env m by
      simp only [readsOrFails, hslot]),
    exec_bind_ok (show readsOrFails (fun m => m.heap.slot m.env k.bracketed) M = .ok M.env M by
      simp only [readsOrFails, hslot'])]
  have hend := hm.keep hlodged.1 hk v
  refine .ok (b := none) ?_ ⟨rfl, fun _ => hA.entrance⟩
  show Abreast X N { m with heap := m.heap.define m.env k.dotted v }
    { M with heap := M.heap.define M.env k.bracketed (v.repooled X.pool) }
  rw [hm.env] at hend ⊢
  exact hend

/-- Using an operand that is kept. -/
theorem tracks_kept (hk : k ∈ l.nook) (hd : k ∈ l.declared) :
    Tracks X N (At (X.Amid x (l :: Γ))) (Resumes X) (dispatch ⟨.fetch k.dotted, span, b⟩)
      (dispatch ⟨.fetch k.bracketed, span', b'⟩) := by
  simp only [dispatch]
  refine (Tracks.give (A := X.Amid x (l :: Γ)) (tracks_readsOrFails fun m M hm hA => ?_)).resumes
    fun _ _ h => h.entrance
  have hlodged := hm.lodged
  rw [hA.2.2] at hlodged
  obtain ⟨w, hw, hw'⟩ := hlodged.kept hm.grounds hk hd
  rw [Machine.lookup, Machine.lookup, (Heap.resolve?_of_lookup hw).1, hm.env, (Heap.resolve?_of_lookup hw').1]
  exact .ok ⟨hA, rfl⟩

/-- A hidden scope is made. -/
theorem enterNook (hm : Abreast X N m M) {ν : List Keep} (htidy : Tidy ν)
    (hΓ : X.lodges m.sectionIndex m.pc = Γ) {pc pc' cycles cycles' : Nat}
    (hpc : pc' = X.place m.sectionIndex pc) (hΔ : X.lodges m.sectionIndex pc = ⟨ν, [], []⟩ :: Γ) :
    Abreast X (N.open (m.heap.newChild m.env).1 ν)
      { m with env := (m.heap.newChild m.env).1, heap := (m.heap.newChild m.env).2, pc, cycles }
      { M with env := (M.heap.newChild M.env).1, heap := (M.heap.newChild M.env).2, pc := pc', cycles := cycles' } := by
  have hlodged := hm.lodged
  rw [hΓ] at hlodged
  have hinner := Heap.lodged_newChild (ν := ν) hm.grounds hlodged
  have hmade := hm.onGrounds (hm.grounds.nookChild htidy m.env) fun hs => hs.nookChild hm.beside m.env ν
  have hchild := (hm.beside.nookChild m.env ν).1
  rw [hm.env, hchild]
  refine { hmade with env := rfl, pc := hpc, lodged := ?_ }
  rw [hΔ]
  exact hinner

/-- A hidden scope is left. -/
theorem leaveNook (hm : Abreast X N m M) (hΓ : X.lodges m.sectionIndex m.pc = l :: Γ) {pc pc' cycles cycles' : Nat}
    (hpc : pc' = X.place m.sectionIndex pc) (hΔ : X.lodges m.sectionIndex pc = Γ) :
    ∃ outer, m.heap.parent? m.env = some outer ∧ M.heap.parent? M.env = some outer ∧
      Abreast X N { m with env := outer, pc, cycles } { M with env := outer, pc := pc', cycles := cycles' } := by
  have hlodged := hm.lodged
  rw [hΓ] at hlodged
  obtain ⟨-, -, -, outer, houter, hrest⟩ := hlodged
  refine ⟨outer, houter, by rw [hm.env, hm.beside.parents, houter], { hm with env := rfl, pc := hpc, lodged := ?_ }⟩
  rw [hΔ]
  exact hrest

/-- An operand is declared. -/
theorem declareOperand (hm : Abreast X N m M) {ν declared keyed : List Keep} (hk : k ∈ ν)
    (hΓ : X.lodges m.sectionIndex m.pc = ⟨ν, declared, keyed⟩ :: Γ) {pc pc' cycles cycles' : Nat}
    (hpc : pc' = X.place m.sectionIndex pc) (hΔ : X.lodges m.sectionIndex pc = ⟨ν, k :: declared, keyed⟩ :: Γ) :
    Abreast X N { m with heap := m.heap.define m.env k.dotted .undefined, pc, cycles }
      { M with heap := M.heap.define M.env k.bracketed .undefined, pc := pc', cycles := cycles' } := by
  have hlodged := hm.lodged
  rw [hΓ] at hlodged
  have hkept := hm.keep hlodged.1 hk .undefined
  have hlt := hm.beside.made m.env (N.hidden_of_eq hlodged.1)
  have hdeclared : Heap.Lodged N _ _ (⟨ν, k :: declared, keyed⟩ :: Γ) m.env :=
    ((hm.grounds.keep hlodged.1 hk .undefined).2 hlodged).declared
      ⟨.undefined, by rw [Heap.lookup_define, if_pos ⟨⟨rfl, hlt⟩, rfl⟩]⟩
  rw [← hΔ] at hdeclared
  have hend : Abreast X N { m with heap := m.heap.define m.env k.dotted .undefined, pc, cycles }
      { M with heap := M.heap.define m.env k.bracketed .undefined, pc := pc', cycles := cycles' } :=
    { hkept with pc := hpc, lodged := hdeclared }
  rw [hm.env] at hend ⊢
  exact hend

/-- A key is kept beside an operand. -/
theorem keepKey (hm : Abreast X N m M) {ν declared keyed : List Keep} (hk : k ∈ ν) {slot name : String}
    (hkey : k.key = some (slot, name)) (hΓ : X.lodges m.sectionIndex m.pc = ⟨ν, declared, keyed⟩ :: Γ)
    {pc pc' cycles cycles' : Nat} (hpc : pc' = X.place m.sectionIndex pc)
    (hΔ : X.lodges m.sectionIndex pc = ⟨ν, declared, k :: keyed⟩ :: Γ) :
    Abreast X N { m with pc, cycles }
      ({ M with pc := pc', cycles := cycles' }.keeping slot (.string name)) := by
  have hlodged := hm.lodged
  rw [hΓ] at hlodged
  obtain ⟨hgrounds, hlodges⟩ := hm.grounds.keepKey hlodged.1 hk hkey
  have hlt := hm.beside.made m.env (N.hidden_of_eq hlodged.1)
  have hkeyed : Heap.Lodged N _ _ (⟨ν, declared, k :: keyed⟩ :: Γ) m.env :=
    (hlodges hlodged).keyed fun slot' property hkey' => by
      rw [hkey] at hkey'
      cases hkey'
      rw [Heap.lookup_define, if_pos ⟨⟨rfl, hm.beside.size ▸ hlt⟩, rfl⟩]
  rw [← hΔ] at hkeyed
  rw [← hm.env] at hgrounds hlodges hkeyed
  exact { hm.onGrounds hgrounds hlodges with pc := hpc, lodged := hm.env ▸ hkeyed }

/-- A key that is kept. -/
theorem keptKey (hm : Abreast X N m M) (hΓ : X.lodges m.sectionIndex m.pc = l :: Γ) (hk : k ∈ l.nook)
    (hd : k ∈ l.keyed) {slot name : String} (hkey : k.key = some (slot, name)) :
    name ≠ indexer ∧ M.heap.resolve? M.env slot = some (.string name) := by
  have hlodged := hm.lodged
  rw [hΓ] at hlodged
  obtain ⟨hN, -, hkeyed, -⟩ := hlodged
  refine ⟨((hm.grounds.nook hN).tidy.key k hk slot name hkey).2, ?_⟩
  rw [hm.env]
  exact (Heap.resolve?_of_lookup (hkeyed k hd hk slot name hkey)).1

/-- The same constant, each from its own pool. -/
theorem tracks_const {A : Nat → Nat → Prop} {n n' : Nat} {lit lit' : Literal}
    (hn : X.ledger.dotted.constants[n]? = some lit) (hn' : X.ledger.bracketed.constants[n']? = some lit')
    (hkey : lit'.key = lit.key) (hA : ∀ y pc, A y pc → X.Entrance y pc) :
    Tracks X N (At A) (Resumes X) (dispatch ⟨.const n, span, b⟩) (dispatch ⟨.const n', span', b'⟩) := by
  simp only [dispatch]
  refine (Tracks.give (A := A) (tracks_readsOrFails fun m M hm hm' => ?_)).resumes hA
  rw [hm.program, hm.program', X.constant hn, X.constant' hn']
  exact .ok ⟨hm', X.repooled hn hn' hkey⟩

/-! ### Cells -/

section Cells

variable {i i' j : Instruction} {c : Code} {name : String}

/-- One instruction stands for one. -/
theorem catchesUp_one (hm : Abreast X N m M) (hcell : (X.sheet m.sectionIndex)[m.pc]? = some cell)
    (htwin : cell.twin = [i']) (hspan : i'.span = cell.instruction.span)
    (hgo : ¬ (mode = .step ∧ i'.boundary ∧ !first)) (hlimit : M.exceeded? = none) {N' : Nooks}
    (hd : Ended X N' (Resumes X) (dispatch cell.instruction m.fetching) (dispatch i' M.fetching)) :
    CatchesUp X mode first cell.instruction m M := by
  have hi : M.program.instruction? M.sectionIndex M.pc = some i' := by
    have hat := hm.instruction? hcell (j := 0) (by rw [htwin]; exact Nat.zero_lt_one)
    rwa [htwin] at hat
  exact .level (Nat.zero_le 3) .here hlimit hi hgo hspan hd

/-- An instruction stands for one, once a key is on the stack. -/
theorem catchesUp_keyed (hm : Abreast X N m M) (hcell : (X.sheet m.sectionIndex)[m.pc]? = some cell)
    (htwin : cell.twin = [j, i']) (hspan : i'.span = cell.instruction.span) (hb : i'.boundary = false)
    (hgo : ¬ (mode = .step ∧ j.boundary ∧ !first)) (hlimit : M.exceeded? = none)
    (hkey : dispatch j M.fetching = .ok none (M.fetching.withKey name))
    (hd : Ended X N (Resumes X) (dispatch cell.instruction m.fetching) (dispatch i' ((M.ahead 2).withKey name))) :
    CatchesUp X mode first cell.instruction m M := by
  have hj : M.program.instruction? M.sectionIndex M.pc = some j := by
    have hat := hm.instruction? hcell (j := 0) (by rw [htwin]; exact Nat.zero_lt_two)
    rwa [htwin] at hat
  have hi : M.program.instruction? M.sectionIndex (M.pc + 1) = some i' := by
    have hat := hm.instruction? hcell (j := 1) (by rw [htwin]; exact Nat.one_lt_two)
    rwa [htwin] at hat
  have hpace : Paces mode 1 first M false (M.fetching.withKey name) := .next (tick_next hlimit hj hgo hkey) rfl .here
  by_cases hfull : (M.fetching.withKey name).exceeded? = none
  · exact .level (by omega) hpace hfull hi (by simp [hb]) hspan hd
  · exact .full (by omega) hpace hfull (Nat.le_refl _)

/-- An operand is used once its key has been kept. The key takes the place of one more entry on the stack for two
of the instructions. -/
theorem catchesUp_keep {Γ₀ : List Lodge} {span span' span'' : Span} {b : Bool} {ν declared keyed : List Keep}
    {k : Keep} {slot : String} {n : Nat} (hm : Abreast X N m M)
    (hcell : (X.sheet m.sectionIndex)[m.pc]? = some ⟨Γ₀, ⟨.fetch k.dotted, span, b⟩,
      [⟨.const n, span', b⟩, ⟨.declare slot, span'', false⟩, ⟨.store slot, span'', false⟩,
        ⟨.fetch k.bracketed, span, false⟩]⟩)
    (hΓ : X.lodges m.sectionIndex m.pc = ⟨ν, declared, keyed⟩ :: Γ)
    (hgo : ¬ (mode = .step ∧ b ∧ !first)) (hfree : M.config.maxCycles = none) (hlimit : M.exceeded? = none)
    (hn : Q.constants[n]? = some (.string name))
    (hd : Ended X N (Resumes X) (dispatch ⟨.fetch k.dotted, span, b⟩ m.fetching)
      (dispatch ⟨.fetch k.bracketed, span, false⟩ ((M.ahead 4).keeping slot (.string name)))) :
    CatchesUp X mode first ⟨.fetch k.dotted, span, b⟩ m M := by
  have hat : ∀ {j}, j < 4 → M.program.instruction? M.sectionIndex (M.pc + j) = _ := fun hj => hm.instruction? hcell hj
  have hlodged := hm.lodged
  rw [hΓ] at hlodged
  have hlt : M.env.index < M.heap.scopes.size := by
    rw [hm.env, hm.beside.size]
    exact hm.beside.made _ (N.hidden_of_eq hlodged.1)
  -- the key is on the stack, its name is declared, and the key is stored there
  let M₁ := M.fetching.withKey name
  let M₂ := ((M.ahead 2).keeping slot .undefined).withKey name
  let M₃ := (M.ahead 3).keeping slot (.string name)
  have h₁ : M.tick mode first = .next M₁ :=
    tick_next hlimit (hat (j := 0) (by omega)) hgo (dispatch_constKey (hm.program' ▸ hn))
  by_cases hfull : M₁.exceeded? = none
  · have hlimit₂ : M₂.exceeded? = none :=
      (exceeded?_eq_none (m := M₂) hfree).2 ((exceeded?_eq_none (m := M₁) hfree).1 hfull)
    have hlimit₃ : M₃.exceeded? = none :=
      (exceeded?_eq_none (m := M₃) hfree).2 ((exceeded?_eq_none (m := M) hfree).1 hlimit)
    have h₂ : M₁.tick mode false = .next M₂ := tick_next hfull (hat (j := 1) (by omega)) (by simp) (dispatch_declare rfl)
    have hslot : (M₂.heap.scope M₂.env).vars.lookup slot = some .undefined :=
      (Heap.lookup_define ..).trans (if_pos ⟨⟨rfl, hlt⟩, rfl⟩)
    have h₃ : M₂.tick mode false = .next M₃ := by
      refine tick_next hlimit₂ (hat (j := 2) (by omega)) (by simp) ?_
      have hstored : dispatch ⟨.store slot, span'', false⟩ (((M.ahead 3).keeping slot .undefined).withKey name) = _ :=
        dispatch_keepKey (Heap.resolve?_of_lookup hslot).2
      rw [keeping_keeping] at hstored
      exact hstored
    exact .level (Nat.le_refl 3) (.next h₁ rfl (.next h₂ rfl (.next h₃ rfl .here))) hlimit₃ (hat (j := 3) (by omega)) (by simp) rfl hd
  · exact .full (by omega) (.next h₁ rfl .here) hfull (Nat.le_refl _)

/-- **An instruction and those that stand for it.** A machine with code for brackets catches up with one that
stands at the corresponding place of code for dots. -/
theorem catchesUp (hm : Abreast X N m M) (hcell : (X.sheet m.sectionIndex)[m.pc]? = some cell)
    (hgo : ¬ (mode = .step ∧ cell.instruction.boundary ∧ !first)) (hfree : M.config.maxCycles = none)
    (hlimit : M.exceeded? = none) : CatchesUp X mode first cell.instruction m M := by
  have hcouple := (X.strand m.sectionIndex).couple hcell
  have hinside : cell.instruction.op.isLast = false → X.Inside m.sectionIndex (m.pc + 1) := X.goesOn hcell
  have hjump : ∀ l ∈ cell.instruction.op.targets, ∀ {Δ}, X.ledger.labels[l]? = some Δ →
      ∃ t, X.Leads m.sectionIndex l t ∧ X.Amid m.sectionIndex Δ m.sectionIndex t := fun l hl _ hΔ => X.leads hcell hl hΔ
  have hlodged := hm.lodged
  -- behind the instruction, where neither heap has changed
  have hfetched := hm.fetched hcell
  have hplace : X.place m.sectionIndex (m.pc + 1) = M.pc + cell.twin.length := by
    rw [hm.pc]
    exact place_succ hcell
  obtain ⟨Γ₀, i, c⟩ := cell
  change Couple X.ledger (X.lodges m.sectionIndex m.pc) i c (X.lodges m.sectionIndex (m.pc + 1)) at hcouple
  generalize hΓ : X.lodges m.sectionIndex m.pc = Γ at hcouple hlodged
  generalize hΔ : X.lodges m.sectionIndex (m.pc + 1) = Δ at hcouple hfetched
  cases hcouple with
  | same hn =>
    have hd := tracks_dispatch hn hjump _ _ (hfetched hlodged) ⟨rfl, hΔ, hinside⟩
    exact catchesUp_one hm hcell rfl rfl hgo hlimit hd
  | @const _ span b n n' lit lit' hn hn' hkey =>
    exact catchesUp_one hm hcell rfl rfl hgo hlimit (show Ended X N _ _ _ from
      tracks_const (A := X.Amid m.sectionIndex Γ) hn hn' hkey (fun _ _ h => h.entrance) _ _ (hfetched hlodged)
        ⟨rfl, hinside rfl, hΔ⟩)
  | @property _ span span' b n name hname hn =>
    have hd := tracks_dispatch (i := ⟨.fetchProperty name, span, false⟩) (Γ := Γ) trivial hjump _ _ (hfetched hlodged)
      ⟨rfl, hΔ, hinside⟩
    refine catchesUp_keyed hm hcell rfl rfl rfl hgo hlimit (dispatch_constKey (hm.program' ▸ X.constant' hn)) ?_
    rw [dispatch_fetchKey hname]
    exact hd
  | @setProperty _ span span' b n name hname hn =>
    have hd := tracks_dispatch (i := ⟨.storeProperty name, span, false⟩) (Γ := Γ) trivial hjump _ _ (hfetched hlodged)
      ⟨rfl, hΔ, hinside⟩
    refine catchesUp_keyed hm hcell rfl rfl rfl hgo hlimit (dispatch_constKey (hm.program' ▸ X.constant' hn)) ?_
    rw [dispatch_storeKey hname]
    exact hd
  | @enter _ span b nook htidy =>
    refine catchesUp_one hm hcell rfl rfl hgo hlimit
      (show Ended X (N.open (m.heap.newChild m.env).1 nook) _ _ _ from ?_)
    rw [dispatch_enterScope rfl, dispatch_enterScope rfl]
    exact .ok (hm.enterNook htidy hΓ hplace.symm hΔ) ⟨rfl, fun _ => .inr (hinside rfl)⟩
  | @declare _ span b nook declared keyed k hk =>
    refine catchesUp_one hm hcell rfl rfl hgo hlimit (show Ended X N _ _ _ from ?_)
    rw [dispatch_declare rfl, dispatch_declare rfl]
    exact .ok (hm.declareOperand hk hΓ hplace.symm hΔ) ⟨rfl, fun _ => .inr (hinside rfl)⟩
  | @keep _ span b l k hk hd =>
    exact catchesUp_one hm hcell rfl rfl hgo hlimit (show Ended X N _ _ _ from
      tracks_keep hk hd _ _ (hfetched hlodged) ⟨rfl, hinside rfl, hΔ⟩)
  | @kept _ span b l k hk hd =>
    exact catchesUp_one hm hcell rfl rfl hgo hlimit (show Ended X N _ _ _ from
      tracks_kept hk hd _ _ (hfetched hlodged) ⟨rfl, hinside rfl, hΔ⟩)
  | @keepKey _ span span' span'' b nook declared keyed k slot name n hk hd hkey hn =>
    exact hm.catchesUp_keep hcell hΓ hgo hfree hlimit (X.constant' hn) (show Ended X N _ _ _ from
      tracks_kept hk hd _ _ (hm.keepKey hk hkey hΓ hplace.symm hΔ) ⟨rfl, hinside rfl, hΔ⟩)
  | @keptProperty Γ span span' b l k slot name hk hd hkey =>
    obtain ⟨hname, hslot⟩ := hm.keptKey hΓ hk hd hkey
    have hd := tracks_dispatch (i := ⟨.fetchProperty name, span, false⟩) (Γ := l :: Γ) trivial hjump _ _
      (hfetched hlodged) ⟨rfl, hΔ, hinside⟩
    refine catchesUp_keyed hm hcell rfl rfl rfl hgo hlimit (dispatch_slotKey hslot) ?_
    rw [dispatch_fetchKey hname]
    exact hd
  | @setKeptProperty Γ span span' b l k slot name hk hd hkey =>
    obtain ⟨hname, hslot⟩ := hm.keptKey hΓ hk hd hkey
    have hd := tracks_dispatch (i := ⟨.storeProperty name, span, false⟩) (Γ := l :: Γ) trivial hjump _ _
      (hfetched hlodged) ⟨rfl, hΔ, hinside⟩
    refine catchesUp_keyed hm hcell rfl rfl rfl hgo hlimit (dispatch_slotKey hslot) ?_
    rw [dispatch_storeKey hname]
    exact hd
  | @leave _ span b l =>
    obtain ⟨outer, houter, houter', hend⟩ := hm.leaveNook hΓ hplace.symm hΔ
    have hd := dispatch_leaveScope (m := m.fetching) (i := ⟨.leaveScope, span, b⟩) rfl houter
    have hd' := dispatch_leaveScope (m := M.fetching) (i := ⟨.leaveScope, span, b⟩) rfl houter'
    refine catchesUp_one hm hcell rfl rfl hgo hlimit
      (show Ended X N _ (dispatch ⟨.leaveScope, span, b⟩ m.fetching) _ from ?_)
    rw [hd, hd']
    exact .ok hend ⟨rfl, fun _ => .inr (hinside rfl)⟩

end Cells

end Abreast

end Machine

end ScriptMachine
