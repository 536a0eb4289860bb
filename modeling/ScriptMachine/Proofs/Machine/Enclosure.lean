import ScriptMachine.Proofs.Machine.Inert
import ScriptMachine.Proofs.Machine.Jumps

/-!
# Enclosure — the stack of a machine has the brackets of its place

At every instruction of compiled code the markers on the stack are the loops and the try statements in which the
instruction stands, and the scope of the machine lies inside the scopes of these markers as the nesting says
(`Bracketed`). A region of a statement with a final part remembers where the statement began: among the machines that
the run has gone through there is one that started the statement, on the stack below the region and in its scope
(`Since`). An instruction keeps this whatever it does (`proceeds_dispatch`), and so does an exception that a region
catches (`handle_stations`).
-/

namespace ScriptMachine

open Compile

/-- The instruction with which a try statement starts. The region of its handler is opened by another one. -/
def Opcode.startsTry : Opcode → Bool
  | .tryStart _ _ false => true
  | _ => false

/-- What an instruction does, by its place. -/
def Program.opcode? (p : Program) (x pc : Nat) : Option Opcode := (p.instruction? x pc).map (·.op)

namespace Machine

/-! ### Where a statement began -/

/-- The instruction that a machine is about to execute. -/
def opcode? (m : Machine) : Option Opcode := m.program.opcode? m.sectionIndex m.pc

/-- A machine in front of a try statement. -/
def StartsTry (m : Machine) : Prop := m.opcode?.any Opcode.startsTry = true

instance (m : Machine) : Decidable m.StartsTry := inferInstanceAs (Decidable (_ = _))

/-- Among the machines that a run has gone through, the last one that started a try statement on its stack, and from
which on the stack has never been lower. Its statement has a final part, and its labels begin with the given one. -/
def Began (past : List Machine) (l : Nat) (v : Machine) : Prop :=
  v.opcode? = some (.tryStart l (some (l + 1)) false) ∧ ∃ earlier later, past = earlier ++ v :: later ∧
    ∀ u ∈ later, v.stack.entries <:+ u.stack.entries ∧ (u.stack.entries = v.stack.entries → ¬ u.StartsTry)

/-- A statement of a section began on a stack and in a scope, which existed then. -/
def Since (past : List Machine) (x l : Nat) (env : ScopeId) (es : List Entry) : Prop :=
  ∃ v, Began past l v ∧ v.sectionIndex = x ∧ v.env = env ∧ v.stack.entries = es ∧ env.index < v.heap.scopes.size

variable {T : Nat → Nat → Station} {past us : List Machine} {h h' : Heap} {x k j l : Nat} {env e : ScopeId}
  {s : List Bracket} {es es' : List Entry} {σ : Station} {m u v : Machine} {i : Instruction}

theorem Began.startsTry (h : Began past l v) : v.StartsTry := by
  rw [StartsTry, h.1]
  rfl

/-- At most one machine began a statement on a stack that is still there. -/
theorem Began.unique {l' : Nat} {v' : Machine} (h : Began past l v) (h' : Began past l' v')
    (hstack : v'.stack.entries = v.stack.entries) : v' = v := by
  have hstarts := h.startsTry
  have hstarts' := h'.startsTry
  obtain ⟨-, earlier, later, rfl, hlater⟩ := h
  obtain ⟨-, earlier', later', hsplit, hlater'⟩ := h'
  -- whichever of the two came first would have seen the other start a statement on its stack
  rcases List.append_eq_append_iff.1 hsplit with ⟨_ | ⟨a, mid⟩, -, hmid⟩ | ⟨_ | ⟨a, mid⟩, -, hmid⟩
  · exact (List.cons.inj hmid).1.symm
  · have hmem : v' ∈ later := by
      rw [(List.cons.inj hmid).2]
      simp
    exact absurd hstarts' ((hlater v' hmem).2 hstack)
  · exact (List.cons.inj hmid).1
  · have hmem : v ∈ later' := by
      rw [(List.cons.inj hmid).2]
      simp
    exact absurd hstarts ((hlater' v hmem).2 hstack.symm)

theorem Since.append (hsince : Since past x l env es)
    (hus : ∀ u ∈ us, es <:+ u.stack.entries ∧ (u.stack.entries = es → ¬ u.StartsTry)) :
    Since (past ++ us) x l env es := by
  obtain ⟨v, ⟨hop, earlier, later, rfl, hlater⟩, hx, henv, rfl, hlt⟩ := hsince
  refine ⟨v, ⟨hop, earlier, later ++ us, by simp, fun u hu => ?_⟩, hx, henv, rfl, hlt⟩
  exact (List.mem_append.1 hu).elim (hlater u) (hus u)

theorem ne_of_cons_suffix {entry : Entry} (hs : entry :: es <:+ es') : es' ≠ es := fun heq => by
  have hlen := hs.length_le
  rw [heq, List.length_cons] at hlen
  exact absurd hlen (Nat.not_succ_le_self _)

/-- A stack that has always been higher has started no statement below. -/
theorem Since.above {entry : Entry} (hsince : Since past x l env es) (hus : ∀ u ∈ us, entry :: es <:+ u.stack.entries) :
    Since (past ++ us) x l env es := hsince.append fun u hu =>
  ⟨(List.suffix_cons _ _).trans (hus u hu), fun heq => absurd heq (ne_of_cons_suffix (hus u hu))⟩

/-- A statement that has only just begun. -/
theorem since_self (hop : v.opcode? = some (.tryStart l (some (l + 1)) false))
    (hlt : v.env.index < v.heap.scopes.size) : Since (past ++ [v]) v.sectionIndex l v.env v.stack.entries :=
  ⟨v, ⟨hop, past, [], rfl, fun _ hu => absurd hu List.not_mem_nil⟩, rfl, rfl, rfl, hlt⟩

/-! ### Brackets on the stack -/

/-- The entries of a stack are bracketed as at an instruction of a section, in a scope of some depth. What a call of the
host lies on does not matter. -/
inductive Bracketed (T : Nat → Nat → Station) (past : List Machine) (h : Heap) :
    Nat → Nat → ScopeId → List Bracket → List Entry → Prop where
  | bottom {x k env base} : h.Inside env k base 0 → Bracketed T past h x k env [] []
  | host {x k env base f below} : f.fromHost = true → h.Inside env k base 0 →
      Bracketed T past h x k env [] (.frame f :: below)
  | call {x k env base f j s below} : f.fromHost = false → h.Inside env k base 0 → f.env.index < h.scopes.size →
      T f.returnSection f.returnPc = ⟨j, .plain, s⟩ → Bracketed T past h f.returnSection j f.env s below →
      Bracketed T past h x k env [] (.frame f :: below)
  | value {x k env s v below} : Bracketed T past h x k env s below → Bracketed T past h x k env s (.value v :: below)
  | loop {x k env j e s below} : h.Inside env k e j → Bracketed T past h x j e s below →
      Bracketed T past h x k env (.loop j :: s) (.loop e :: below)
  | region {x k env j f s r below} : h.Inside env k r.env j → r.sectionIndex = x →
      T x r.handlerPc = ⟨j, .caught f, s⟩ → (∀ l, f = some l → Since past x l r.env below) →
      Bracketed T past h x j r.env s below → Bracketed T past h x k env (.region j f :: s) (.region r :: below)

namespace Bracketed

theorem of_value {v : Value} (hb : Bracketed T past h x k env s (.value v :: es)) :
    Bracketed T past h x k env s es := by
  cases hb with
  | value hb => exact hb

theorem retains (hb : Bracketed T past h x k env s es) (hr : Heap.Retains h h') (henv : env.index < h.scopes.size) :
    Bracketed T past h' x k env s es := by
  induction hb with
  | bottom hi => exact .bottom (hi.retains hr henv)
  | host hf hi => exact .host hf (hi.retains hr henv)
  | call hf hi hlt hT _ ih => exact .call hf (hi.retains hr henv) (hr.lt hlt) hT (ih hlt)
  | value _ ih => exact .value (ih henv)
  | loop hi _ ih => exact .loop (hi.retains hr henv) (ih (hi.lt henv))
  | region hi hx hT hsince _ ih => exact .region (hi.retains hr henv) hx hT hsince (ih (hi.lt henv))

/-- More machines, none of them on a lower stack. -/
theorem append (hb : Bracketed T past h x k env s es) (hus : ∀ u ∈ us, es <:+ u.stack.entries) :
    Bracketed T (past ++ us) h x k env s es := by
  have htail : ∀ {e : Entry} {below : List Entry}, (∀ u ∈ us, e :: below <:+ u.stack.entries) →
      ∀ u ∈ us, below <:+ u.stack.entries := fun hus u hu => (List.suffix_cons _ _).trans (hus u hu)
  induction hb with
  | bottom hi => exact .bottom hi
  | host hf hi => exact .host hf hi
  | call hf hi hlt hT _ ih => exact .call hf hi hlt hT (ih (htail hus))
  | value _ ih => exact .value (ih (htail hus))
  | loop hi _ ih => exact .loop hi (ih (htail hus))
  | region hi hx hT hsince _ ih => exact .region hi hx hT (fun l hl => (hsince l hl).above hus) (ih (htail hus))

/-- Values above the topmost marker do not matter. -/
theorem iff_footing : Bracketed T past h x k env s es ↔ Bracketed T past h x k env s (footing es) := by
  induction es with
  | nil => exact Iff.rfl
  | cons entry es ih =>
    cases entry with
    | value v => exact ⟨fun hb => ih.1 hb.of_value, fun hb => .value (ih.2 hb)⟩
    | _ => exact Iff.rfl

theorem congr_footing (hb : Bracketed T past h x k env s es) (heq : footing es' = footing es) :
    Bracketed T past h x k env s es' := by
  rw [iff_footing, heq, ← iff_footing]
  exact hb

/-- The same brackets, seen from a scope further inside. -/
theorem deepen (hb : Bracketed T past h x j e s es) (hi : h.Inside env k e j) : Bracketed T past h x k env s es := by
  induction hb with
  | bottom hbase => exact .bottom (hi.trans hbase)
  | host hf hbase => exact .host hf (hi.trans hbase)
  | call hf hbase hlt hT hb => exact .call hf (hi.trans hbase) hlt hT hb
  | value _ ih => exact .value (ih hi)
  | loop hloop hb => exact .loop (hi.trans hloop) hb
  | region hregion hx hT hsince hb => exact .region (hi.trans hregion) hx hT hsince hb

theorem enter (hb : Bracketed T past h x k env s es) (henv : env.index < h.scopes.size) :
    Bracketed T past (h.newChild env).2 x (k + 1) (h.newChild env).1 s es :=
  (hb.retains (.newScope h _) henv).deepen (.newChild henv k)

/-- The scope is left for the one around it, which all brackets lie outside of. -/
theorem leave (hb : Bracketed T past h x (k + 1) env s es) (hs : Snug k s) :
    ∃ outer, h.parent? env = some outer ∧ outer.index < env.index ∧ Bracketed T past h x k outer s es := by
  generalize hk : k + 1 = n at hb
  induction hb with
  | bottom hi =>
    subst hk
    obtain ⟨outer, hp, hlt, hi⟩ := hi.leave (Nat.zero_le _)
    exact ⟨outer, hp, hlt, .bottom hi⟩
  | host hf hi =>
    subst hk
    obtain ⟨outer, hp, hlt, hi⟩ := hi.leave (Nat.zero_le _)
    exact ⟨outer, hp, hlt, .host hf hi⟩
  | call hf hi hfenv hT hb =>
    subst hk
    obtain ⟨outer, hp, hlt, hi⟩ := hi.leave (Nat.zero_le _)
    exact ⟨outer, hp, hlt, .call hf hi hfenv hT hb⟩
  | value _ ih =>
    obtain ⟨outer, hp, hlt, hb⟩ := ih hs hk
    exact ⟨outer, hp, hlt, .value hb⟩
  | loop hi hb =>
    subst hk
    obtain ⟨outer, hp, hlt, hi⟩ := hi.leave (hs _ rfl)
    exact ⟨outer, hp, hlt, .loop hi hb⟩
  | region hi hx hT hsince hb =>
    subst hk
    obtain ⟨outer, hp, hlt, hi⟩ := hi.leave (hs _ rfl)
    exact ⟨outer, hp, hlt, .region hi hx hT hsince hb⟩

end Bracketed

/-! ### Machines at their stations -/

/-- The entries of a stack are as a station says. On the way out of a statement with a final part it is known where the
statement began. -/
def Posed (T : Nat → Nat → Station) (past : List Machine) (h : Heap) (x : Nat) (σ : Station) (env : ScopeId)
    (es : List Entry) : Prop :=
  match σ.phase with
  | .plain | .freed => Bracketed T past h x σ.scopes env σ.brackets es
  | .caught f => ∃ v below, es = .value v :: below ∧ Bracketed T past h x σ.scopes env σ.brackets below ∧
      ∀ l, f = some l → Since past x l env below
  | .left j l => Bracketed T past h x σ.scopes env σ.brackets es ∧ ∃ e, h.Inside env σ.scopes e j ∧ Since past x l e es
  | .done l => Bracketed T past h x σ.scopes env σ.brackets es ∧ Since past x l env es

theorem Posed.bracketed (hp : Posed T past h x σ env es) : Bracketed T past h x σ.scopes env σ.brackets es := by
  unfold Posed at hp
  split at hp
  · exact hp
  · exact hp
  · obtain ⟨v, below, rfl, hb, -⟩ := hp
    exact .value hb
  · exact hp.1
  · exact hp.1

theorem Posed.retains (hp : Posed T past h x σ env es) (hr : Heap.Retains h h') (henv : env.index < h.scopes.size) :
    Posed T past h' x σ env es := by
  unfold Posed at hp ⊢
  split at hp
  · exact hp.retains hr henv
  · exact hp.retains hr henv
  · obtain ⟨v, below, he, hb, hsince⟩ := hp
    exact ⟨v, below, he, hb.retains hr henv, hsince⟩
  · obtain ⟨hb, e, hi, hsince⟩ := hp
    exact ⟨hb.retains hr henv, e, hi.retains hr henv, hsince⟩
  · exact ⟨hp.1.retains hr henv, hp.2⟩

/-- More machines, none of them on a lower stack. Those on the same stack start no statement, unless the station is on
the way out of none. -/
theorem Posed.append (hp : Posed T past h x σ env es) (hus : ∀ u ∈ us, es <:+ u.stack.entries)
    (hstarts : σ.phase = .plain ∨ ∀ u ∈ us, u.stack.entries = es → ¬ u.StartsTry) :
    Posed T (past ++ us) h x σ env es := by
  unfold Posed at hp ⊢
  split at hp
  · exact hp.append hus
  · exact hp.append hus
  · obtain ⟨v, below, rfl, hb, hsince⟩ := hp
    have hbelow : ∀ u ∈ us, below <:+ u.stack.entries := fun u hu => (List.suffix_cons _ _).trans (hus u hu)
    exact ⟨v, below, rfl, hb.append hbelow, fun l hl => (hsince l hl).above hus⟩
  · obtain ⟨hb, e, hi, hsince⟩ := hp
    have hstarts := hstarts.resolve_left (by simp [*])
    exact ⟨hb.append hus, e, hi, hsince.append fun u hu => ⟨hus u hu, hstarts u hu⟩⟩
  · have hstarts := hstarts.resolve_left (by simp [*])
    exact ⟨hp.1.append hus, hp.2.append fun u hu => ⟨hus u hu, hstarts u hu⟩⟩

/-- More machines, all of them on higher stacks. -/
theorem Posed.above {entry : Entry} (hp : Posed T past h x σ env es) (hus : ∀ u ∈ us, entry :: es <:+ u.stack.entries) :
    Posed T (past ++ us) h x σ env es :=
  hp.append (fun u hu => (List.suffix_cons _ _).trans (hus u hu))
    (.inr fun u hu heq => absurd heq (ne_of_cons_suffix (hus u hu)))

/-- A machine stands at the station of its place, in a scope that exists. -/
structure Stationed (T : Nat → Nat → Station) (past : List Machine) (m : Machine) : Prop where
  env : m.env.index < m.heap.scopes.size
  posed : Posed T past m.heap m.sectionIndex (T m.sectionIndex m.pc) m.env m.stack.entries

theorem Stationed.of_eq (hσ : T m.sectionIndex m.pc = σ) (henv : m.env.index < m.heap.scopes.size)
    (hp : Posed T past m.heap m.sectionIndex σ m.env m.stack.entries) : Stationed T past m := ⟨henv, hσ ▸ hp⟩

/-- The entries of a stack are bracketed somehow. -/
def Enclosed (T : Nat → Nat → Station) (past : List Machine) (h : Heap) (es : List Entry) : Prop :=
  ∃ x k env s, env.index < h.scopes.size ∧ Bracketed T past h x k env s es

/-- What an instruction leads to: it goes on to another station, unless it ends the run, or it fails on a stack that
can be unwound. -/
def Proceeds (T : Nat → Nat → Station) (past : List Machine) (m : Machine) :
    EStateM.Result Cause Machine (Option Stop) → Prop
  | .ok reason u => Heap.Retains m.heap u.heap ∧
      (reason ≠ some .eof → reason ≠ some .hostReturn → Stationed T past u)
  | .error c u => c.isCatchable = true → Heap.Retains m.heap u.heap ∧ Enclosed T past u.heap u.stack.entries

section Instructions

variable {r : EStateM.Result Cause Machine (Option Stop)}

theorem proceeds_fails (hr : ∃ breach u, r = .error (.invariant breach) u) : Proceeds T past m r := by
  obtain ⟨breach, u, rfl⟩ := hr
  exact nofun

/-- An instruction that only moves the machine to another station. -/
theorem proceeds_goes {pc : Nat} (hσ : T m.sectionIndex pc = σ) (henv : env.index < m.heap.scopes.size)
    (hp : Posed T past m.heap m.sectionIndex σ env es) :
    Proceeds T past m (.ok none ({ m with pc, env }.onStack es)) := ⟨.refl _, fun _ _ => .of_eq hσ henv hp⟩

/-- Instructions that begin by taking a value. -/
theorem pop_or_fails (hop : i.op = .ret ∨ i.op = .throw ∨ (∃ l, i.op = .jumpTrue l) ∨ ∃ l, i.op = .jumpFalse l)
    (m : Machine) :
    (∃ v s, m.stack.entries = .value v :: s) ∨ ∃ breach u, dispatch i m = .error (.invariant breach) u := by
  have hfails : (∃ breach u, pop m = .error (.invariant breach) u) →
      ∃ breach u, dispatch i m = .error (.invariant breach) u := by
    rintro ⟨breach, u, hpop⟩
    refine ⟨breach, u, ?_⟩
    obtain hop | hop | ⟨l, hop⟩ | ⟨l, hop⟩ := hop <;> simp only [dispatch, returnToFrame, hop, exec_bind, hpop]
  cases hs : m.stack.entries with
  | nil => exact .inr (hfails ⟨_, _, by simp only [pop, exec_bind, popEntry, Stack.top?, hs]; rfl⟩)
  | cons e s =>
    cases e with
    | value v => exact .inl ⟨v, s, rfl⟩
    | _ => exact .inr (hfails ⟨_, _, by simp only [pop, exec_bind, popEntry, Stack.top?, hs]; rfl⟩)

/-- An inert instruction goes on to the next one, or enters a function that returns there. -/
theorem proceeds_inert (hm : m.hosts.Retain) (hi : i.op.isInert = true) (hstart : ∀ x, T x 0 = .start)
    (hσ : T m.sectionIndex m.pc = ⟨k, .plain, s⟩) (henv : m.env.index < m.heap.scopes.size)
    (hb : Bracketed T past m.heap m.sectionIndex k m.env s m.stack.entries) : Proceeds T past m (dispatch i m) := by
  have hidles := idles_dispatch hi m hm
  have hstays : ∀ v, Still m v → v.env.index < v.heap.scopes.size ∧
      Bracketed T past v.heap v.sectionIndex k v.env s v.stack.entries := by
    intro v hv
    rw [hv.env, hv.sectionIndex]
    exact ⟨hv.heap.lt henv, (hb.congr_footing hv.footing).retains hv.heap henv⟩
  cases hd : dispatch i m with
  | error c u =>
    rw [hd] at hidles
    exact fun hc => ⟨(hidles hc).heap, _, _, _, _, hstays u (hidles hc)⟩
  | ok reason u =>
    rw [hd] at hidles
    obtain ⟨v, hv, rfl | ⟨f, receiver, args, rfl⟩⟩ := hidles
    all_goals
      obtain ⟨hvenv, hvb⟩ := hstays v hv
      have hnext : T v.sectionIndex v.pc = ⟨k, .plain, s⟩ := by rw [hv.sectionIndex, hv.pc, hσ]
    · exact ⟨hv.heap, fun _ _ => .of_eq hnext hvenv hvb⟩
    · obtain ⟨hretains, hexists⟩ := enterFunction_retains f receiver args false v
      refine ⟨hv.heap.trans hretains, fun _ _ => .of_eq (hstart _) hexists ?_⟩
      exact Bracketed.call rfl (.refl _ _ 0) (hretains.lt hvenv) hnext (hvb.retains hretains hvenv)

/-- A scope is opened on the way to the next station. -/
theorem proceeds_enter (hop : i.op = .enterScope) (hσ : T m.sectionIndex m.pc = ⟨k + 1, .plain, s⟩)
    (henv : m.env.index < m.heap.scopes.size)
    (hb : Bracketed T past m.heap m.sectionIndex k m.env s m.stack.entries) : Proceeds T past m (dispatch i m) := by
  rw [dispatch_enterScope hop]
  exact ⟨.newScope _ _, fun _ _ => .of_eq hσ (by simp) (hb.enter henv)⟩

/-- A return goes back to the station behind the call, or to the host. -/
theorem proceeds_ret (hop : i.op = .ret) (hb : Bracketed T past m.heap m.sectionIndex k m.env s m.stack.entries) :
    Proceeds T past m (dispatch i m) := by
  obtain ⟨v, rest, hs⟩ | hfails := pop_or_fails (.inl hop) m
  · rw [hs] at hb
    rw [eq_onStack hs]
    cases hb.of_value with
    | host hf =>
      rw [dispatch_ret hop, hf]
      exact ⟨.refl _, by simp⟩
    | call hf _ hlt hT hbelow =>
      rw [dispatch_ret hop, hf]
      exact ⟨.refl _, fun _ _ => .of_eq hT hlt (Bracketed.value hbelow)⟩
    | bottom | value | loop | region => exact proceeds_fails ⟨_, _, by simp only [dispatch, hop]; rfl⟩
  · exact proceeds_fails hfails

/-- A conditional jump takes a value and goes to its label or to the next instruction, which have the same station. -/
theorem proceeds_branch {l pc : Nat} (hop : i.op = .jumpTrue l ∨ i.op = .jumpFalse l)
    (hl : m.program.jumpTarget? l = some pc) (hpc : T m.sectionIndex pc = ⟨k, .plain, s⟩)
    (hσ : T m.sectionIndex m.pc = ⟨k, .plain, s⟩) (henv : m.env.index < m.heap.scopes.size)
    (hb : Bracketed T past m.heap m.sectionIndex k m.env s m.stack.entries) : Proceeds T past m (dispatch i m) := by
  have hpops : i.op = .ret ∨ i.op = .throw ∨ (∃ l, i.op = .jumpTrue l) ∨ ∃ l, i.op = .jumpFalse l :=
    .inr (.inr (hop.imp (fun h => ⟨l, h⟩) fun h => ⟨l, h⟩))
  obtain ⟨v, rest, hs⟩ | hfails := pop_or_fails hpops m
  · rw [hs] at hb
    have hgoes : ∀ taken,
        Proceeds T past (m.onStack (.value v :: rest)) (.ok none ((m.branch taken pc).onStack rest)) := by
      intro taken
      cases taken with
      | true => exact proceeds_goes (m := m.onStack (.value v :: rest)) hpc henv hb.of_value
      | false => exact proceeds_goes (m := m.onStack (.value v :: rest)) hσ henv hb.of_value
    rw [eq_onStack hs]
    obtain hop | hop := hop
    · rw [dispatch_jumpTrue hop hl]
      exact hgoes _
    · rw [dispatch_jumpFalse hop hl]
      exact hgoes _
  · exact proceeds_fails hfails

/-- Leaving a loop finds its marker, if there are only values above it. -/
theorem unwindLoop_cases (es : List Entry) : (∃ e below, unwindLoop es = .ok (e, .loop e :: below) ∧
    footing es = .loop e :: below) ∨ ∃ found, unwindLoop es = .error found := by
  induction es with
  | nil => exact .inr ⟨_, rfl⟩
  | cons entry es ih =>
    cases entry with
    | value => exact ih
    | loop e => exact .inl ⟨e, es, rfl, rfl⟩
    | frame | region => exact .inr ⟨_, rfl⟩

theorem proceeds_exit {l pc : Nat} (hop : i.op = .loopExit l) (hl : m.program.jumpTarget? l = some pc)
    (hpc : T m.sectionIndex pc = ⟨j, .plain, .loop j :: s⟩) (henv : m.env.index < m.heap.scopes.size)
    (hb : Bracketed T past m.heap m.sectionIndex k m.env (.loop j :: s) m.stack.entries) :
    Proceeds T past m (dispatch i m) := by
  obtain ⟨e, below, hunwind, hfooting⟩ | ⟨found, hfound⟩ := unwindLoop_cases m.stack.entries
  · have hexit : dispatch i m = .ok none ({ m with pc, env := e }.onStack (.loop e :: below)) := by
      simp only [dispatch, hop]
      rw [exec_bind_ok ((exitLoop_ok hunwind).trans (jump_resolved hl))]
      rfl
    rw [Bracketed.iff_footing, hfooting] at hb
    rw [hexit]
    cases hb with
    | loop hi hb => exact proceeds_goes hpc (hi.lt henv) (Bracketed.loop (.refl _ _ j) hb)
  · refine proceeds_fails ?_
    simp only [dispatch, hop, exec_bind, exitLoop_error hfound]
    exact ⟨_, _, rfl⟩

/-- A marker is not taken off under a value. -/
theorem proceeds_unmarked {v : Value} (hop : i.op = .loopEnd ∨ i.op = .tryEnd)
    (hs : m.stack.entries = .value v :: es) : Proceeds T past m (dispatch i m) := by
  rw [eq_onStack hs]
  obtain hop | hop := hop <;> exact proceeds_fails ⟨_, _, by simp only [dispatch, hop]; rfl⟩

/-- **Every instruction leads from its station to the next**, or to the station of a label. -/
theorem proceeds_dispatch {p : Program} {pc : Nat} (hT : Charted p T) (hprogram : m.program = p) (hpc : m.pc = pc + 1)
    (hhosts : m.hosts.Retain) (hi : p.instruction? m.sectionIndex pc = some i) (henv : m.env.index < m.heap.scopes.size)
    (hposed : Posed T past m.heap m.sectionIndex (T m.sectionIndex pc) m.env m.stack.entries)
    (hbegins : ∀ l, i.op = .tryStart l (some (l + 1)) false → Since past m.sectionIndex l m.env m.stack.entries) :
    Proceeds T past m (dispatch i m) := by
  obtain ⟨J, hmoves, hJ⟩ := hT.step hi
  have hnext : T m.sectionIndex m.pc = T m.sectionIndex (pc + 1) := by rw [hpc]
  have hself : m.onStack m.stack.entries = m := onStack_self m
  have hb := hposed.bracketed
  rw [← hprogram] at hJ
  generalize T m.sectionIndex pc = σ at hmoves hposed hb
  generalize T m.sectionIndex (pc + 1) = τ at hmoves hnext
  generalize hop : i.op = op at hmoves
  -- the machine goes on to the next instruction, with other entries on its stack
  have hstays : ∀ {es : List Entry}, Posed T past m.heap m.sectionIndex τ m.env es →
      Proceeds T past m (.ok none (m.onStack es)) := fun hp => proceeds_goes hnext henv hp
  cases hmoves with
  | inert ho hφ => exact proceeds_inert hhosts (hop ▸ ho) hT.start hnext henv hb
  | ret => exact proceeds_ret hop hb
  | throw =>
    obtain ⟨v, rest, hs⟩ | hfails := pop_or_fails (.inr (.inl hop)) m
    · rw [hs] at hb
      rw [eq_onStack hs, dispatch_throw hop]
      exact fun _ => ⟨.refl _, _, _, _, _, henv, hb.of_value⟩
    · exact proceeds_fails hfails
  | eof =>
    rw [dispatch_eof hop]
    exact ⟨.refl _, by simp⟩
  | labelCaught =>
    rw [dispatch_skip (.inr ⟨_, hop⟩), ← hself]
    exact hstays hposed
  | labelLeft =>
    obtain ⟨-, e, hi, hsince⟩ := hposed
    obtain rfl := hi.eq_of_depth
    rw [dispatch_skip (.inr ⟨_, hop⟩), ← hself]
    exact hstays ⟨hb, hsince⟩
  | jump hφ hl =>
    obtain ⟨pc', htarget, hσ⟩ := hJ _ _ hl
    rw [dispatch_jump hop htarget, ← hself]
    exact proceeds_goes hσ henv hb
  | jumpLeft hl =>
    obtain ⟨pc', htarget, hσ⟩ := hJ _ _ hl
    rw [dispatch_jump hop htarget, ← hself]
    exact proceeds_goes hσ henv hposed
  | jumpTrue hl =>
    obtain ⟨pc', htarget, hσ⟩ := hJ _ _ hl
    exact proceeds_branch (.inl hop) htarget hσ hnext henv hb
  | jumpFalse hl =>
    obtain ⟨pc', htarget, hσ⟩ := hJ _ _ hl
    exact proceeds_branch (.inr hop) htarget hσ hnext henv hb
  | enterScope | enterCaught | enterDone | enterLeft => exact proceeds_enter hop hnext henv hb
  | leaveScope hs =>
    obtain ⟨outer, hparent, hlt, hb⟩ := hb.leave hs
    rw [dispatch_leaveScope hop hparent, ← hself]
    exact proceeds_goes hnext (Nat.lt_trans hlt henv) hb
  | loopStart =>
    rw [← hself, dispatch_loopStart hop]
    exact hstays (Bracketed.loop (.refl _ _ _) hb)
  | loopEnd =>
    generalize hs : m.stack.entries = es at hb
    cases hb with
    | value => exact proceeds_unmarked (.inl hop) hs
    | loop hi hb =>
      rw [eq_onStack hs, dispatch_loopEnd hop]
      exact hstays (hb.deepen hi)
  | loopExit _ hl =>
    obtain ⟨pc', htarget, hσ⟩ := hJ _ _ hl
    exact proceeds_exit hop htarget hσ henv hb
  | tryStart hl =>
    obtain ⟨pc', htarget, hσ⟩ := hJ _ _ hl
    have hnone : none = (none : Option Nat).map some := rfl
    rw [← hself, dispatch_tryStart hop htarget hnone]
    exact hstays (Bracketed.region (.refl _ _ _) rfl hσ (fun _ hf => by cases hf) hb)
  | @tryFinal l k s hl hl' _ =>
    obtain ⟨pc', htarget, hσ⟩ := hJ _ _ hl
    obtain ⟨finalPc, hfinal, -⟩ := hJ _ _ hl'
    have hbegan := hbegins l hop
    have hsome : some (m.program.jumpTarget? (l + 1)) = (some finalPc).map some := congrArg some hfinal
    rw [← hself, dispatch_tryStart hop htarget hsome]
    exact hstays (Bracketed.region (.refl _ _ _) rfl hσ (fun l' hl' => by cases hl'; exact hbegan) hb)
  | tryKeep hl =>
    obtain ⟨pc', htarget, hσ⟩ := hJ _ _ hl
    obtain ⟨v, below, hs, hbelow, hsince⟩ := hposed
    rw [eq_onStack hs, dispatch_tryKeep hop htarget]
    exact hstays (Bracketed.value (.region (.refl _ _ _) rfl hσ hsince hbelow))
  | tryEnd =>
    generalize hs : m.stack.entries = es at hb
    cases hb with
    | value => exact proceeds_unmarked (.inr hop) hs
    | region hi _ _ _ hb =>
      rw [eq_onStack hs, dispatch_tryEnd hop]
      exact hstays (hb.deepen hi)
  | tryEndFinal =>
    generalize hs : m.stack.entries = es at hb
    cases hb with
    | value => exact proceeds_unmarked (.inr hop) hs
    | region hi _ _ hsince hb =>
      rw [eq_onStack hs, dispatch_tryEnd hop]
      exact hstays ⟨hb.deepen hi, _, hi, hsince _ rfl⟩

end Instructions

/-! ### Exceptions -/

/-- A region catches an exception at its handler. -/
def Landing.Stations (T : Nat → Nat → Station) (past : List Machine) (h : Heap) : Landing → Prop
  | .region r below => r.env.index < h.scopes.size ∧
      ∀ v, Posed T past h r.sectionIndex (T r.sectionIndex r.handlerPc) r.env (.value v :: below)
  | .host _ _ | .bottom _ => True

theorem unwind_stations (hb : Bracketed T past h x k env s es) (henv : env.index < h.scopes.size)
    (last : Option Frame) : (unwind last es).1.Stations T past h := by
  induction hb generalizing last with
  | bottom => trivial
  | host hf =>
    simp only [unwind, hf, if_true]
    trivial
  | call hf _ hlt _ _ ih =>
    simp only [unwind, hf, Bool.false_eq_true, if_false]
    exact ih hlt _
  | value _ ih => exact ih henv last
  | loop hi _ ih => exact ih (hi.lt henv) last
  | region hi hx hT hsince hb =>
    subst hx
    refine ⟨hi.lt henv, fun v => ?_⟩
    rw [hT]
    exact ⟨v, _, rfl, hb, hsince⟩

/-- An exception goes to a station, or to the host. -/
theorem handle_stations {c : Cause} (hc : c.isCatchable = true) (span : Span)
    (he : Enclosed T past m.heap m.stack.entries) :
    Heap.Retains m.heap (m.handle c span).2.heap ∧
      ((m.handle c span).1 = none → Stationed T past (m.handle c span).2) := by
  obtain ⟨x, k, env, s, henv, hb⟩ := he
  have hretains : Heap.Retains m.heap (thrownValue c m.heap).2 := by
    unfold thrownValue
    split
    · exact .refl _
    · exact .of_scopes rfl
  have hlands := unwind_stations (hb.retains hretains henv) (hretains.lt henv) none
  rw [handle_catchable hc]
  cases hl : (unwind none m.stack.entries).1 with
  | region r below =>
    rw [hl] at hlands
    exact ⟨hretains, fun _ => ⟨hlands.1, hlands.2 _⟩⟩
  | host f below => exact ⟨hretains, nofun⟩
  | bottom last => cases last <;> exact ⟨hretains, nofun⟩

/-! ### One step of a run -/

/-- A machine of a program at its station, among host values that move no scope. -/
structure Working (p : Program) (T : Nat → Nat → Station) (past : List Machine) (m : Machine) : Prop where
  program : m.program = p
  hosts : m.hosts.Retain
  stationed : Stationed T past m

/-- How a run that started with some heap ends. -/
structure Concluded (p : Program) (T : Nat → Nat → Station) (past : List Machine) (h : Heap) (r : Except Fault Stop)
    (u : Machine) : Prop where
  program : u.program = p
  hosts : u.hosts.Retain
  heap : (∃ reason, r = .ok reason) ∨ u.state ≠ .error → Heap.Retains h u.heap
  stationed : r = .ok .breakpoint ∨ r = .ok .boundary → Stationed T past u

/-- What a step of a run leads to. -/
def Tick.Stations (p : Program) (T : Nat → Nat → Station) (past : List Machine) (v : Machine) (fetched : Bool) :
    Tick → Prop
  | .next u => fetched = true ∧ Working p T (past ++ [v]) u ∧ Heap.Retains v.heap u.heap
  | .stop reason u => Concluded p T (if fetched then past ++ [v] else past) v.heap (.ok reason) u
  | .fault f u => Concluded p T (if fetched then past ++ [v] else past) v.heap (.error f) u

variable {p : Program} {mode : Mode} {first b : Bool} {fuel : Nat} {w : Machine}

theorem Concluded.failed {h : Heap} {f : Fault} {u : Machine} (hprogram : u.program = p) (hhosts : u.hosts.Retain)
    (hheap : u.state ≠ .error → Heap.Retains h u.heap) : Concluded p T past h (.error f) u := by
  refine ⟨hprogram, hhosts, fun hstate => ?_, fun hstop => ?_⟩
  · obtain ⟨reason, hreason⟩ | hstate := hstate
    · cases hreason
    · exact hheap hstate
  · obtain hstop | hstop := hstop <;> cases hstop

/-- Only at a plain station does a try statement start. -/
theorem Working.not_starts (hT : Charted p T) (hv : Working p T past v) :
    (T v.sectionIndex v.pc).phase = .plain ∨ ¬ v.StartsTry := by
  by_cases hstarts : v.StartsTry
  · obtain ⟨op, hop, hstart⟩ := (Option.any_eq_true _ _).1 hstarts
    obtain ⟨i, hi, rfl⟩ := Option.map_eq_some_iff.1 hop
    obtain ⟨J, hmoves, -⟩ := hT.step (hv.program ▸ hi)
    generalize i.op = op at hmoves hstart
    generalize T v.sectionIndex v.pc = σ at hmoves ⊢
    generalize T v.sectionIndex (v.pc + 1) = τ at hmoves
    cases hmoves with
    | inert ho => cases op <;> first | cases hstart | cases ho
    | tryStart | tryFinal => exact .inl rfl
    | _ => cases hstart
  · exact .inr hstarts

/-- What the instruction at the place of a machine leads to. -/
theorem Working.dispatch (hT : Charted p T) (hv : Working p T past v)
    (hi : v.program.instruction? v.sectionIndex v.pc = some i) :
    Proceeds T (past ++ [v]) v.fetching (dispatch i v.fetching) := by
  have hsame : ∀ u ∈ [v], v.stack.entries <:+ u.stack.entries := fun u hu => by
    obtain rfl := List.mem_singleton.1 hu
    exact List.suffix_refl _
  have hposed := hv.stationed.posed.append hsame ((hv.not_starts hT).imp_right fun hnot u hu _ => by
    rw [List.mem_singleton.1 hu]
    exact hnot)
  refine proceeds_dispatch (m := v.fetching) hT hv.program rfl hv.hosts (hv.program ▸ hi) hv.stationed.env hposed
    fun l hop => since_self ?_ hv.stationed.env
  rw [opcode?, Program.opcode?, hi, Option.map_some, hop]

/-- **One step of a run keeps a machine at its stations.** -/
theorem tick_stations (hT : Charted p T) (hv : Working p T past v) (mode : Mode) (first : Bool) :
    (v.tick mode first).Stations p T past v (v.fetches mode first) := by
  rcases tick_cases mode first v with ⟨-, -, ht, hfetch, -⟩ | ⟨ht, hfetch⟩
  · rw [ht, hfetch]
    exact ⟨hv.program, hv.hosts, fun _ => .refl _, fun _ => hv.stationed⟩
  rw [ht, hfetch]
  by_cases hrun : v.fetches .run true = true
  · obtain ⟨i, hi, ht⟩ := instruction_of_fetches hrun
    have hproceeds := hv.dispatch hT hi
    have hsteady := steady_dispatch i v.fetching
    rw [ht, hrun]
    cases hd : Machine.dispatch i v.fetching with
    | ok reason u =>
      rw [hd] at hproceeds hsteady
      have hprogram : u.program = p := hsteady.program.trans hv.program
      have hhosts : u.hosts.Retain := by rw [hsteady.hosts]; exact hv.hosts
      cases reason with
      | none => exact ⟨rfl, ⟨hprogram, hhosts, hproceeds.2 (by simp) (by simp)⟩, hproceeds.1⟩
      | some reason =>
        refine ⟨hprogram, hhosts, fun _ => hproceeds.1, fun hreason => ?_⟩
        obtain hreason | hreason := hreason <;> cases hreason <;> exact hproceeds.2 (by simp) (by simp)
    | error c u =>
      rw [hd] at hproceeds hsteady
      obtain ⟨hkept, hkeptHosts, -⟩ := handle_keeps u c i.span
      have hprogram : (u.handle c i.span).2.program = p := hkept.trans (hsteady.program.trans hv.program)
      have hhosts : (u.handle c i.span).2.hosts.Retain := by rw [hkeptHosts, hsteady.hosts]; exact hv.hosts
      have hroutes : (u.handle c i.span).1 = none ∨ (u.handle c i.span).2.state ≠ .error →
          Heap.Retains v.heap (u.handle c i.span).2.heap ∧
            ((u.handle c i.span).1 = none → Stationed T (past ++ [v]) (u.handle c i.span).2) := by
        by_cases hc : c.isCatchable = true
        · obtain ⟨hretains, henclosed⟩ := hproceeds hc
          obtain ⟨hheap, hstationed⟩ := handle_stations hc i.span henclosed
          exact fun _ => ⟨hretains.trans hheap, hstationed⟩
        · unfold handle
          rw [if_pos (by simpa using hc)]
          rintro (h | h)
          · cases h
          · exact absurd rfl h
      simp only [routed]
      generalize u.handle c i.span = handled at hprogram hhosts hroutes
      obtain ⟨fault, z⟩ := handled
      cases fault with
      | none =>
        obtain ⟨hheap, hstationed⟩ := hroutes (.inl rfl)
        exact ⟨rfl, ⟨hprogram, hhosts, hstationed rfl⟩, hheap⟩
      | some fault =>
        exact .failed hprogram hhosts fun hstate => (hroutes (.inr hstate)).1
  · obtain ⟨fault, hfault, -⟩ := tick_of_not_fetches (Bool.eq_false_iff.2 hrun)
    rw [hfault]
    exact .failed hv.program hv.hosts fun _ => .refl _

end Machine

end ScriptMachine
