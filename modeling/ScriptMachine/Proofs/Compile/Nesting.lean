import ScriptMachine.Proofs.Compile.Sections

/-!
# Nesting — the scopes, loops and try statements open at each instruction

A `Station` says how many scopes a body has opened, which loops and try statements it stands in, and how far control
has come on its way out of a try statement. It says nothing about values, so code has stations whatever its
expressions take from the stack. `Moves` gives the station after an instruction and the stations that its labels must
have; `Route` puts these together along a listing, and a compiled program has a station for every place
(`Script.exists_chart`).
-/

namespace ScriptMachine

/-- An instruction that neither opens nor closes anything, and goes on to the next unless it fails or calls. -/
def Opcode.isInert : Opcode → Bool
  | .nop | .label _ | .const _ | .dup | .pop | .fetch _ | .fetchProperty _ | .store _ | .storeProperty _ | .declare _
  | .binary _ | .call _ _ | .createObject _ _ | .createArray _ | .createRecord _ | .debugger => true
  | _ => false

namespace Compile

open Listing

/-- A loop or a try statement, with the number of scopes that are open where it begins. A statement with a final part
is named by the first of its labels. -/
inductive Bracket where
  | loop (scopes : Nat)
  | region (scopes : Nat) (final : Option Nat)

/-- The scopes that are open where a loop or a statement begins. -/
def Bracket.scopes : Bracket → Nat
  | .loop k => k
  | .region k _ => k

/-- How far control has come on its way out of a try statement. -/
inductive Phase where
  | plain
  /-- The region of a statement without a final part has just been closed. -/
  | freed
  /-- The exception that a region caught lies on the stack. -/
  | caught (final : Option Nat)
  /-- The region of a statement with a final part has just been closed; so many scopes were open around it. -/
  | left (scopes label : Nat)
  /-- The label past the statement has been passed, and its final part comes next. -/
  | done (label : Nat)

/-- Control is on its way out of no statement with a final part. -/
def Phase.IsOpen (φ : Phase) : Prop := φ = .plain ∨ φ = .freed

/-- What is open at an instruction: scopes, and loops and try statements, innermost first. -/
structure Station where
  scopes : Nat
  phase : Phase
  brackets : List Bracket

/-- Nothing is open. -/
def Station.start : Station := ⟨0, .plain, []⟩

/-- No scope inside the innermost loop or statement is closed before it. -/
def Snug (k : Nat) (s : List Bracket) : Prop := ∀ b, s.head? = some b → b.scopes ≤ k

/-- The station after an instruction. Where control never comes, any station will do. -/
inductive Moves (J : List (Nat × Station)) : Opcode → Station → Station → Prop where
  | inert {op k φ s} : op.isInert = true → φ.IsOpen → Moves J op ⟨k, φ, s⟩ ⟨k, .plain, s⟩
  | ret {σ τ} : Moves J .ret σ τ
  | throw {σ τ} : Moves J .throw σ τ
  | eof {σ τ} : Moves J .eof σ τ
  | labelCaught {l k f s} : Moves J (.label l) ⟨k, .caught f, s⟩ ⟨k, .caught f, s⟩
  | labelLeft {n l k s} : Moves J (.label n) ⟨k, .left k l, s⟩ ⟨k, .done l, s⟩
  | jump {l k φ s τ} : φ.IsOpen → (l, ⟨k, .plain, s⟩) ∈ J → Moves J (.jump l) ⟨k, φ, s⟩ τ
  | jumpLeft {n l j k s τ} : (n, ⟨k, .left j l, s⟩) ∈ J → Moves J (.jump n) ⟨k, .left j l, s⟩ τ
  | jumpTrue {l k s} : (l, ⟨k, .plain, s⟩) ∈ J → Moves J (.jumpTrue l) ⟨k, .plain, s⟩ ⟨k, .plain, s⟩
  | jumpFalse {l k s} : (l, ⟨k, .plain, s⟩) ∈ J → Moves J (.jumpFalse l) ⟨k, .plain, s⟩ ⟨k, .plain, s⟩
  | enterScope {k s} : Moves J .enterScope ⟨k, .plain, s⟩ ⟨k + 1, .plain, s⟩
  | enterCaught {k f s} : Moves J .enterScope ⟨k, .caught f, s⟩ ⟨k + 1, .plain, s⟩
  | enterDone {k l s} : Moves J .enterScope ⟨k, .done l, s⟩ ⟨k + 1, .plain, s⟩
  | enterLeft {j k l s} : j < k → Moves J .enterScope ⟨k, .left j l, s⟩ ⟨k + 1, .plain, s⟩
  | leaveScope {k s} : Snug k s → Moves J .leaveScope ⟨k + 1, .plain, s⟩ ⟨k, .plain, s⟩
  | loopStart {k s} : Moves J .loopStart ⟨k, .plain, s⟩ ⟨k, .plain, .loop k :: s⟩
  | loopEnd {j k φ s} : φ.IsOpen → Moves J .loopEnd ⟨k, φ, .loop j :: s⟩ ⟨k, .plain, s⟩
  | loopExit {l j k φ s τ} : φ.IsOpen → (l, ⟨j, .plain, .loop j :: s⟩) ∈ J →
      Moves J (.loopExit l) ⟨k, φ, .loop j :: s⟩ τ
  | tryStart {l k s} : (l, ⟨k, .caught none, s⟩) ∈ J →
      Moves J (.tryStart l none false) ⟨k, .plain, s⟩ ⟨k, .plain, .region k none :: s⟩
  | tryFinal {l k s} : (l, ⟨k, .caught (some l), s⟩) ∈ J → (l + 1, ⟨k, .caught (some l), s⟩) ∈ J →
      (l + 2, ⟨k, .left k l, s⟩) ∈ J →
      Moves J (.tryStart l (some (l + 1)) false) ⟨k, .plain, s⟩ ⟨k, .plain, .region k (some l) :: s⟩
  | tryKeep {l k f s} : (l, ⟨k, .caught f, s⟩) ∈ J →
      Moves J (.tryStart l none true) ⟨k, .caught f, s⟩ ⟨k, .plain, .region k f :: s⟩
  | tryEnd {j k φ s} : φ.IsOpen → Moves J .tryEnd ⟨k, φ, .region j none :: s⟩ ⟨k, .freed, s⟩
  | tryEndFinal {j k l φ s} : φ.IsOpen → Moves J .tryEnd ⟨k, φ, .region j (some l) :: s⟩ ⟨k, .left j l, s⟩

variable {J P Q : List (Nat × Station)} {σ ρ τ : Station} {k j : Nat} {s : List Bracket} {φ : Phase} {L A B : Listing}
  {g g₁ g₂ : List (Nat × Station)} {span : Span} {o : Opcode}

theorem Moves.mono (h : Moves P o σ τ) (hP : P ⊆ J) : Moves J o σ τ := by
  cases h with
  | inert ho hφ => exact .inert ho hφ
  | jump hφ hl => exact .jump hφ (hP hl)
  | jumpLeft hl => exact .jumpLeft (hP hl)
  | jumpTrue hl => exact .jumpTrue (hP hl)
  | jumpFalse hl => exact .jumpFalse (hP hl)
  | enterLeft hj => exact .enterLeft hj
  | leaveScope hs => exact .leaveScope hs
  | loopEnd hφ => exact .loopEnd hφ
  | loopExit hφ hl => exact .loopExit hφ (hP hl)
  | tryStart hl => exact .tryStart (hP hl)
  | tryFinal h₀ h₁ h₂ => exact .tryFinal (hP h₀) (hP h₁) (hP h₂)
  | tryKeep hl => exact .tryKeep (hP hl)
  | tryEnd hφ => exact .tryEnd hφ
  | tryEndFinal hφ => exact .tryEndFinal hφ
  | _ => constructor

/-! ### Code with stations -/

/-- Instructions with the stations at which they stand. -/
abbrev Trail := List (Station × Opcode)

/-- The label of an instruction, with the station there. -/
def post (σ : Station) : Opcode → List (Nat × Station)
  | .label l => [(l, σ)]
  | _ => []

/-- The labels of a trail, with the stations there. -/
def posts (W : Trail) : List (Nat × Station) := W.flatMap fun (σ, op) => post σ op

theorem posts_append (V W : Trail) : posts (V ++ W) = posts V ++ posts W := by
  simp [posts]

theorem mem_posts {W : Trail} {l : Nat} (h : (l, σ) ∈ posts W) : (σ, .label l) ∈ W := by
  obtain ⟨⟨ρ, op⟩, hW, hm⟩ := List.mem_flatMap.1 h
  cases op with
  | label l' =>
    obtain ⟨rfl, rfl⟩ := Prod.mk.inj (List.mem_singleton.1 hm)
    exact hW
  | _ => cases hm

/-- Each instruction of a trail leads from its station to the next. -/
inductive Walks (J : List (Nat × Station)) : Station → Trail → Station → Prop where
  | nil {σ : Station} : Walks J σ [] σ
  | cons {op : Opcode} {σ ρ τ : Station} {W : Trail} : Moves J op σ ρ → Walks J ρ W τ → Walks J σ ((σ, op) :: W) τ

theorem Walks.append {V W : Trail} (h : Walks J σ V ρ) (h' : Walks J ρ W τ) : Walks J σ (V ++ W) τ := by
  induction h with
  | nil => exact h'
  | cons hm _ ih => exact .cons hm (ih h')

/-- The station in front of an instruction of a trail, or at its end. -/
def Trail.stationAt (W : Trail) (τ : Station) (pc : Nat) : Station := (W[pc]?.map Prod.fst).getD τ

theorem Walks.head {W : Trail} (h : Walks J σ W τ) : W.stationAt τ 0 = σ := by
  cases h <;> rfl

theorem Walks.step {W : Trail} (h : Walks J σ W τ) {i : Nat} (hi : W[i]? = some (ρ, o)) :
    Moves J o (W.stationAt τ i) (W.stationAt τ (i + 1)) := by
  induction h generalizing i with
  | nil => cases hi
  | cons hm hW ih =>
    cases i with
    | zero =>
      cases hi
      have hhead := hW.head
      exact (show Moves J _ _ (Trail.stationAt _ _ 0) from hhead.symm ▸ hm)
    | succ i => exact ih hi

/-- A listing leads from one station to another, whatever else is known of labels, and has at least the given labels. -/
def Route (P g : List (Nat × Station)) (σ : Station) (L : Listing) (τ : Station) : Prop :=
  ∃ W : Trail, W.map Prod.snd = L.code.map (·.op) ∧ g ⊆ posts W ∧ ∀ J, P ⊆ J → posts W ⊆ J → Walks J σ W τ

namespace Route

theorem nil : Route P [] σ (.ops []) σ := ⟨[], rfl, List.nil_subset _, fun _ _ _ => .nil⟩

theorem op {ops : List Opcode} (h : Moves P o σ ρ) (hrest : Route P g ρ (asm span ops) τ) :
    Route P (post σ o ++ g) σ (asm span (o :: ops)) τ := by
  obtain ⟨W, hops, hg, hW⟩ := hrest
  have hposts : posts ((σ, o) :: W) = post σ o ++ posts W := rfl
  refine ⟨(σ, o) :: W, by rw [List.map_cons, hops]; rfl, ?_, fun J hP hJ => ?_⟩
  · rw [hposts]
    exact List.append_subset.2 ⟨List.subset_append_left _ _, List.subset_append_of_subset_right _ hg⟩
  · rw [hposts] at hJ
    exact .cons (h.mono hP) (hW J hP fun x hx => hJ (List.mem_append_right _ hx))

theorem append (hA : Route P g₁ σ A ρ) (hB : Route P g₂ ρ B τ) : Route P (g₁ ++ g₂) σ (A ++ B) τ := by
  obtain ⟨V, hV, hg₁, hA⟩ := hA
  obtain ⟨W, hW, hg₂, hB⟩ := hB
  refine ⟨V ++ W, ?_, ?_, fun J hP hJ => ?_⟩
  · rw [List.map_append, hV, hW, code_append, List.map_append]
  · rw [posts_append]
    exact List.append_subset.2
      ⟨List.subset_append_of_subset_left _ hg₁, List.subset_append_of_subset_right _ hg₂⟩
  · rw [posts_append] at hJ
    exact (hA J hP fun x hx => hJ (List.mem_append_left _ hx)).append
      (hB J hP fun x hx => hJ (List.mem_append_right _ hx))

theorem stmt (h : Route P g σ L τ) : Route P g σ (.stmt L) τ := by
  obtain ⟨W, hops, hrest⟩ := h
  exact ⟨W, by rw [hops, code_stmt, ops_markFirst], hrest⟩

/-- Labels that a listing has itself need not be known before. -/
theorem close {ns : List (Nat × Station)} (h : Route (ns ++ P) g σ L τ) (hns : ns ⊆ g) : Route P [] σ L τ := by
  obtain ⟨W, hops, hg, hW⟩ := h
  refine ⟨W, hops, List.nil_subset _, fun J hP hJ => hW J ?_ hJ⟩
  exact List.append_subset.2 ⟨fun x hx => hJ (hg (hns hx)), hP⟩

/-- A listing in a scope of its own. -/
theorem within (henter : Moves P .enterScope ⟨k, φ, s⟩ ⟨k + 1, .plain, s⟩) (hs : Snug k s)
    (h : Route P [] ⟨k + 1, .plain, s⟩ L ⟨k + 1, .plain, s⟩) : Route P [] ⟨k, φ, s⟩ (within span L) ⟨k, .plain, s⟩ := by
  have hroute : Route P (([] ++ []) ++ [] ++ ([] ++ [])) ⟨k, φ, s⟩ (Listing.within span L) ⟨k, .plain, s⟩ :=
    ((op henter nil).append h).append (op (.leaveScope hs) nil)
  exact hroute

end Route

theorem route_append (hA : Route P [] σ A ρ) (hB : Route P [] ρ B τ) : Route P [] σ (A ++ B) τ := hA.append hB

/-! ### Expressions -/

theorem Snug.succ (h : Snug k s) : Snug (k + 1) s := fun b hb => Nat.le_succ_of_le (h b hb)

/-- A listing opens and closes nothing for good, wherever it stands. -/
def Level (P : List (Nat × Station)) (L : Listing) : Prop :=
  ∀ k s, Snug k s → Route P [] ⟨k, .plain, s⟩ L ⟨k, .plain, s⟩

namespace Level

theorem append (hA : Level P A) (hB : Level P B) : Level P (A ++ B) := fun k s hs =>
  route_append (hA k s hs) (hB k s hs)

/-- Code of instructions that open and close nothing. -/
theorem inert {code : Code} (h : code.all (·.op.isInert) = true) : Level P (.ops code) := by
  intro k s _
  have hwalks : ∀ J, Walks J ⟨k, .plain, s⟩ (code.map fun i => (⟨k, .plain, s⟩, i.op)) ⟨k, .plain, s⟩ := by
    intro J
    induction code with
    | nil => exact .nil
    | cons i code ih =>
      rw [List.all_cons, Bool.and_eq_true] at h
      exact .cons (.inert h.1 (.inl rfl)) (ih h.2)
  exact ⟨_, by rw [List.map_map]; rfl, List.nil_subset _, fun J _ _ => hwalks J⟩

theorem within (h : Level P L) : Level P (within span L) := fun k s hs =>
  .within .enterScope hs (h (k + 1) s hs.succ)

theorem around {place : Target} (hK : Level P A) (hU : Level P B) : Level P (around span A B place) := by
  cases place with
  | plain name => exact hU
  | property | element => exact (hK.append hU).within

theorem keepAs (span : Span) (name : String) : Level P (.ops (keepAs span name)) := .inert rfl

theorem load (place : Target) (span : Span) : Level P (.ops (place.load span)) := by
  cases place <;> exact .inert rfl

theorem save (place : Target) (span : Span) : Level P (.ops (place.save span)) := by
  cases place <;> exact .inert rfl

end Level

/-- Two ways that meet again: what follows a conditional jump, and what it jumps to. -/
theorem route_either {l : Nat} {T Y N : Listing} (ho : o = .jumpTrue l ∨ o = .jumpFalse l)
    (h : ∀ Q, P ⊆ Q → Route Q [] ⟨k, .plain, s⟩ T ⟨k, .plain, s⟩ ∧ Route Q [] ⟨k, .plain, s⟩ Y ⟨k, .plain, s⟩ ∧
      Route Q [] ⟨k, .plain, s⟩ N ⟨k, .plain, s⟩) :
    Route P [] ⟨k, .plain, s⟩ (T ++ asm span [o] ++ Y ++ asm span [.jump (l + 1), .label l]
      ++ N ++ asm span [.label (l + 1)]) ⟨k, .plain, s⟩ := by
  obtain ⟨hT, hY, hN⟩ := h ([(l, ⟨k, .plain, s⟩), (l + 1, ⟨k, .plain, s⟩)] ++ P) (List.subset_append_right _ _)
  have hbranch : Moves ([(l, ⟨k, .plain, s⟩), (l + 1, ⟨k, .plain, s⟩)] ++ P) o ⟨k, .plain, s⟩ ⟨k, .plain, s⟩ := by
    obtain rfl | rfl := ho
    · exact .jumpTrue (by simp)
    · exact .jumpFalse (by simp)
  have hjump : Moves ([(l, ⟨k, .plain, s⟩), (l + 1, ⟨k, .plain, s⟩)] ++ P) (.jump (l + 1)) ⟨k, .plain, s⟩
      ⟨k, .plain, s⟩ := .jump (.inl rfl) (by simp)
  refine Route.close (((((hT.append (.op hbranch .nil)).append hY).append
    (.op hjump (.op (.inert rfl (.inl rfl)) .nil))).append hN).append (.op (.inert rfl (.inl rfl)) .nil)) ?_
  simp [post]

/-! ### Statements -/

/-- A loop or a statement that an exit from some place leaves: a statement begins outside the scope of that place. -/
def Bracket.Surrounds (k : Nat) : Bracket → Prop
  | .loop j => j ≤ k
  | .region j _ => j < k

/-- All of some loops and statements are left by an exit. -/
def Surrounds (k : Nat) (s : List Bracket) : Prop := ∀ b ∈ s, b.Surrounds k

theorem Bracket.Surrounds.scopes_le {b : Bracket} (h : b.Surrounds k) : b.scopes ≤ k := by
  cases b with
  | loop => exact h
  | region => exact Nat.le_of_lt h

theorem Bracket.Surrounds.succ {b : Bracket} (h : b.Surrounds k) : b.Surrounds (k + 1) := by
  cases b with
  | loop => exact Nat.le_succ_of_le h
  | region => exact Nat.lt_succ_of_lt h

theorem Surrounds.nil (k : Nat) : Surrounds k [] := fun _ hb => absurd hb List.not_mem_nil

theorem Surrounds.succ (h : Surrounds k s) : Surrounds (k + 1) s := fun b hb => (h b hb).succ

theorem Surrounds.snug (h : Surrounds k s) : Snug k s := fun b hb => (h b (List.mem_of_mem_head? hb)).scopes_le

theorem Surrounds.cons {b : Bracket} (hb : b.Surrounds k) (h : Surrounds k s) : Surrounds k (b :: s) := fun c hc =>
  (List.mem_cons.1 hc).elim (fun he => he ▸ hb) (h c)

theorem Surrounds.tail {b : Bracket} (h : Surrounds k (b :: s)) : Surrounds k s := fun c hc =>
  h c (List.mem_cons_of_mem _ hc)

/-- The loops and statements of the contexts around a statement. A final part that throws again is neither. -/
inductive Encloses (J : List (Nat × Station)) : List Context → List Bracket → Prop where
  | nil : Encloses J [] []
  | loop {continueTo breakTo j : Nat} {C : List Context} {s : List Bracket} :
      (continueTo, ⟨j, .plain, .loop j :: s⟩) ∈ J → (breakTo, ⟨j, .plain, .loop j :: s⟩) ∈ J → Encloses J C s →
      Encloses J (.loop continueTo breakTo :: C) (.loop j :: s)
  | region {final : Option (List Stmt)} {j : Nat} {C : List Context} {s : List Bracket} (l : Nat) : Encloses J C s →
      Encloses J (.region final :: C) (.region j (final.map fun _ => l) :: s)
  | pendingThrow {C : List Context} {s : List Bracket} : Encloses J C s → Encloses J (.pendingThrow :: C) s

theorem Encloses.mono {C : List Context} (h : Encloses P C s) (hP : P ⊆ Q) : Encloses Q C s := by
  induction h with
  | nil => exact .nil
  | loop hc hb _ ih => exact .loop (hP hc) (hP hb) ih
  | region l _ ih => exact .region l ih
  | pendingThrow _ ih => exact .pendingThrow ih

theorem drop_innermostLoop {C : List Context} {n continueTo breakTo : Nat}
    (h : innermostLoop? C = some (n, continueTo, breakTo)) : ∃ rest, C.drop n = .loop continueTo breakTo :: rest := by
  induction C generalizing n with
  | nil => cases h
  | cons c C ih =>
    cases c with
    | loop =>
      cases h
      exact ⟨C, rfl⟩
    | region | pendingThrow =>
      obtain ⟨⟨n', labels⟩, hn, he⟩ := Option.map_eq_some_iff.1 h
      cases he
      exact ih hn

/-- A listing ends at the station at which it begins, within some surroundings. -/
def Closes (P : List (Nat × Station)) (around : Surroundings) (L : Listing) : Prop :=
  ∀ k s, Encloses P around.contexts s → Surrounds k s → Route P [] ⟨k, .plain, s⟩ L ⟨k, .plain, s⟩

/-- How the listing of a piece changes the station. -/
def Piece.Routed (P : List (Nat × Station)) (L : Listing) : Piece → Prop
  | .literal _ _ | .expr _ _ | .kind _ _ | .exprs _ _ | .fields _ _ | .operands _ _ _ | .save _ _ | .callee _ _ _
  | .default _ _ | .returned _ _ _ => Level P L
  | .exprThen span after _ => ∀ k s, Snug k s → Route P [] ⟨k, .plain, s⟩ (asm span after) ⟨k, .plain, s⟩ →
      Route P [] ⟨k, .plain, s⟩ L ⟨k, .plain, s⟩
  | .body _ _ _ _ _ | .methods _ _ _ _ => True
  | .finish _ _ unfinished => Route P [] .start unfinished .start → Route P [] .start L .start
  | .stmt around _ | .stmtOption around _ | .stmts around _ | .stmtKind around _ _ => Closes P around L
  | .handler around _ _ => ∀ k s, Encloses P around.contexts s → Snug k s → Surrounds (k + 1) s →
      Route P [] ⟨k, .plain, s⟩ L ⟨k, .plain, s⟩
  | .final _ _ none => L = .ops []
  | .final around _ (some _) => ∀ k φ s, Encloses P around.contexts s → Surrounds k s →
      Moves P .enterScope ⟨k, φ, s⟩ ⟨k + 1, .plain, s⟩ → Route P [] ⟨k, φ, s⟩ L ⟨k, .plain, s⟩
  | .leave _ _ n contexts => ∀ k φ s, φ.IsOpen → Encloses P contexts s → Surrounds k s →
      ∃ φ' t, φ'.IsOpen ∧ Encloses P (contexts.drop n) t ∧ Route P [] ⟨k, φ, s⟩ L ⟨k, φ', t⟩

/-- The parts of a try statement. Past its region, control goes to the last label at the phase `past`. -/
theorem route_try {l : Nat} {f : Option Nat} {after past : Phase} {start : Opcode} {B H F E : Listing}
    (hQ : Q = [(l, ⟨k, .caught f, s⟩), (l + 1, ⟨k, .caught f, s⟩), (l + 2, ⟨k, past, s⟩)] ++ P)
    (hstart : Moves Q start ⟨k, .plain, s⟩ ⟨k, .plain, .region k f :: s⟩)
    (hB : Route Q [] ⟨k, .plain, .region k f :: s⟩ B ⟨k, .plain, .region k f :: s⟩)
    (hend : Moves Q .tryEnd ⟨k, .plain, .region k f :: s⟩ ⟨k, after, s⟩)
    (hjump : ∀ τ, Moves Q (.jump (l + 2)) ⟨k, after, s⟩ τ)
    (hH : Route Q [] ⟨k, .plain, .region k f :: s⟩ H ⟨k, .plain, .region k f :: s⟩)
    (hF : Route Q [] ⟨k, .caught f, s⟩ F ρ) (hlabel : Moves Q (.label (l + 2)) ⟨k, past, s⟩ τ)
    (hE : Route Q [] τ E ⟨k, .plain, s⟩) :
    Route P [] ⟨k, .plain, s⟩ (asm span [start] ++ B
      ++ asm span [.tryEnd, .jump (l + 2), .label l, .tryStart (l + 1) none true]
      ++ H ++ asm span [.tryEnd, .jump (l + 2), .label (l + 1)]
      ++ F ++ asm span [.throw, .label (l + 2)] ++ E) ⟨k, .plain, s⟩ := by
  subst hQ
  have hkeep : (l + 1, ⟨k, .caught f, s⟩) ∈
      [(l, ⟨k, .caught f, s⟩), (l + 1, ⟨k, .caught f, s⟩), (l + 2, ⟨k, past, s⟩)] ++ P := by simp
  refine Route.close (((((((Route.append (.op hstart .nil) hB).append
    (.op hend (.op (hjump _) (.op .labelCaught (.op (.tryKeep hkeep) .nil))))).append hH).append
      (.op hend (.op (hjump _) (.op .labelCaught .nil)))).append hF).append
        (.op .throw (.op hlabel .nil))).append hE) ?_
  simp [post]

/-- Every listing of the generator has the stations of its piece. -/
theorem Emits.routed {p : Piece} {d d' : Draft} (h : Emits p d L d') (P : List (Nat × Station)) : p.Routed P L := by
  induction h generalizing P with
  | literal | ident | this | defaultConstructor | lambda | exprsNil | fieldsNil | operandsIdent | saveIdent =>
    exact .inert rfl
  | constant _ _ ih | badPattern _ _ ih | badUpdate _ _ ih | badAssign _ _ ih | defaultOther _ _ ih | expr _ ih
  | stmtSome _ ih | returnedNone _ ih | returnedSome _ ih => exact ih P
  | array _ ih | record _ ih | member _ ih | new _ ih | operandsMember _ ih | saveMember _ ih | calleeMember _ ih
  | calleeOther _ _ ih => exact (ih P).append (.inert rfl)
  | index _ _ ihL ihK | negate _ _ ihL ihK | binary _ _ ihL ihK | saveIndex _ _ ihL ihK =>
    exact ((ihL P).append (ihK P)).append (.inert rfl)
  | call _ _ ihL ihK | exprsCons _ _ ihL ihK | fieldsCons _ _ ihL ihK => exact (ihL P).append (ihK P)
  | assign _ _ ihV ihS => exact ((ihV P).append (.inert rfl)).append (ihS P)
  | operandsIndex _ _ ihL ihK | calleeIndex _ _ ihL ihK =>
    exact (((ihL P).append (.inert rfl)).append (ihK P)).append (.inert rfl)
  | @update span op giveNew own kind place d K d₁ N d' _ _ ihK ihN =>
    have hchange : Level P (N ++ asm span [.binary (updateOp op)] ++ .ops (place.save span)) :=
      ((ihN P).append (.inert rfl)).append (.save place span)
    have hload : Level P (.ops (place.load (span.refine own))) := .load place _
    refine (ihK P).around ?_
    cases giveNew with
    | true => exact (hload.append hchange).append hload
    | false => exact (hload.append hload).append hchange
  | @assignOp span op own kind value place d K d₁ V d' _ _ ihK ihV =>
    have hload : Level P (.ops (place.load (span.refine own))) := .load place _
    exact (ihK P).around (((hload.append (ihV P)).append (.inert rfl)).append (.save place span))
  | not _ _ _ ihT ihY ihN =>
    exact fun k s hs => route_either (.inl rfl) fun Q _ => ⟨ihT Q k s hs, ihY Q k s hs, ihN Q k s hs⟩
  | conditional _ _ _ ihT ihY ihN =>
    exact fun k s hs => route_either (.inr rfl) fun Q _ => ⟨ihT Q k s hs, ihY Q k s hs, ihN Q k s hs⟩
  | @logical span op left right d L d₁ R d₂ O d' _ _ _ ihT ihY ihN =>
    have hjump : (shortcut d.labels op).1 = .jumpTrue d.labels ∨ (shortcut d.labels op).1 = .jumpFalse d.labels := by
      cases op
      · exact .inr rfl
      · exact .inl rfl
    exact fun k s hs => route_either hjump fun Q _ => ⟨ihT Q k s hs, ihY Q k s hs, ihN Q k s hs⟩
  | exprThenNone => exact fun k s _ _ => .nil
  | exprThenSome _ ih => exact fun k s hs hafter => route_append (ih P k s hs) hafter
  | body | methodsNil | methodsCons => trivial
  | finished => exact id
  | unfinished _ _ ih =>
    exact fun hL => route_append (route_append hL (ih P 0 [] (Surrounds.nil 0).snug)) (.op .ret .nil)
  | stmt _ ih => exact fun k s hC hs => (ih P k s hC hs).stmt
  | stmtNone | stmtsNil | strayBreak | strayContinue | strayReturn | functionStmt | repeatedClass | «class» | empty =>
    exact fun k s _ _ => .nil
  | stmtsCons _ _ ihL ihR => exact fun k s hC hs => route_append (ihL P k s hC hs) (ihR P k s hC hs)
  | exprStmt _ ih =>
    exact fun k s _ hs => route_append (ih P k s hs.snug) (.op (.inert rfl (.inl rfl)) .nil)
  | var _ ih =>
    exact fun k s _ hs => route_append (.op (.inert rfl (.inl rfl)) .nil)
      (ih P k s hs.snug (.op (.inert rfl (.inl rfl)) .nil))
  | block _ ih => exact fun k s hC hs => .within .enterScope hs.snug (ih P (k + 1) s hC hs.succ)
  | cond _ _ _ ihT ihY ihN =>
    exact fun k s hC hs => route_either (.inr rfl) fun Q hQ =>
      ⟨ihT Q k s hs.snug, ihY Q k s (hC.mono hQ) hs, ihN Q k s (hC.mono hQ) hs⟩
  | @«while» around span test body d T d₁ B d' _ _ ihT ihB =>
    intro k s hC hs
    let σ : Station := ⟨k, .plain, .loop k :: s⟩
    let Q := [(d.labels, σ), (d.labels + 1, σ)] ++ P
    have hstart : (d.labels, σ) ∈ Q := by simp [Q]
    have hdone : (d.labels + 1, σ) ∈ Q := by simp [Q]
    have hinside : Surrounds k (.loop k :: s) := hs.cons (Nat.le_refl k)
    have hT := ihT Q k (.loop k :: s) hinside.snug
    have hB := ihB Q k (.loop k :: s) (.loop hstart hdone (hC.mono (List.subset_append_right _ _))) hinside
    have hback : Moves Q (.jump d.labels) σ σ := .jump (.inl rfl) hstart
    refine Route.close ((((Route.append (.op .loopStart (.op (.inert rfl (.inl rfl)) .nil)) hT).append
      (.op (.jumpFalse hdone) .nil)).append hB).append
        (.op hback (.op (.inert rfl (.inl rfl)) (.op (.loopEnd (.inl rfl)) .nil)))) ?_
    simp [post, σ]
  | @«for» around span init test update body d I d₁ T d₂ B d₃ U d' _ _ _ _ ihI ihT ihB ihU =>
    intro k s hC hs
    let σ : Station := ⟨k + 1, .plain, .loop (k + 1) :: s⟩
    let Q := [(d.labels, σ), (d.labels + 1, σ), (d.labels + 2, σ)] ++ P
    have hstart : (d.labels, σ) ∈ Q := by simp [Q]
    have hnext : (d.labels + 1, σ) ∈ Q := by simp [Q]
    have hdone : (d.labels + 2, σ) ∈ Q := by simp [Q]
    have hC : Encloses Q around.contexts s := hC.mono (List.subset_append_right _ _)
    have hinside : Surrounds (k + 1) (.loop (k + 1) :: s) := hs.succ.cons (Nat.le_refl _)
    have hI := ihI Q (k + 1) s hC hs.succ
    have hT := ihT Q (k + 1) (.loop (k + 1) :: s) hinside.snug (.op (.jumpFalse hdone) .nil)
    have hB := ihB Q (k + 1) (.loop (k + 1) :: s) (.loop hnext hdone hC) hinside
    have hU := ihU Q (k + 1) (.loop (k + 1) :: s) hinside.snug (.op (.inert rfl (.inl rfl)) .nil)
    have hback : Moves Q (.jump d.labels) σ σ := .jump (.inl rfl) hstart
    refine .within .enterScope hs.snug (Route.close ((((((hI.append
      (.op .loopStart (.op (.inert rfl (.inl rfl)) .nil))).append hT).append hB).append
        (.op (.inert rfl (.inl rfl)) .nil)).append hU).append
          (.op hback (.op (.inert rfl (.inl rfl)) (.op (.loopEnd (.inl rfl)) .nil)))) ?_)
    simp [post, σ]
  | «break» hn _ ih =>
    intro k s hC hs
    obtain ⟨φ, t, hφ, ht, hL⟩ := ih P k .plain s (.inl rfl) hC hs
    obtain ⟨rest, hrest⟩ := drop_innermostLoop hn
    rw [hrest] at ht
    cases ht with
    | loop _ hbreak _ => exact route_append hL (.op (.loopExit hφ hbreak) .nil)
  | «continue» hn _ ih =>
    intro k s hC hs
    obtain ⟨φ, t, hφ, ht, hL⟩ := ih P k .plain s (.inl rfl) hC hs
    obtain ⟨rest, hrest⟩ := drop_innermostLoop hn
    rw [hrest] at ht
    cases ht with
    | loop hcontinue _ _ => exact route_append hL (.op (.loopExit hφ hcontinue) .nil)
  | ret _ _ _ ih => exact fun k s _ hs => route_append (ih P k s hs.snug) (.op .ret .nil)
  | retLeaving _ _ _ _ ihV ihL =>
    intro k s hC hs
    obtain ⟨φ, t, hφ, -, hL⟩ := ihL P k .plain s (.inl rfl) hC hs
    exact route_append (route_append (route_append (ihV P k s hs.snug) (Level.keepAs _ _ k s hs.snug)) hL)
      (.op (.inert rfl hφ) (.op .ret .nil))
  | throw _ ih => exact fun k s _ hs => route_append (ih P k s hs.snug) (.op .throw .nil)
  | @«try» around span body handler final d B d₁ H d₂ F d₃ E d' _ _ _ _ ihB ihH ihF ihE =>
    intro k s hC hs
    let f := final.map fun _ => d.labels
    let past : Phase := final.elim .plain fun _ => .left k d.labels
    let Q := [(d.labels, ⟨k, .caught f, s⟩), (d.labels + 1, ⟨k, .caught f, s⟩), (d.labels + 2, ⟨k, past, s⟩)] ++ P
    have hcaught : (d.labels, ⟨k, .caught f, s⟩) ∈ Q := by simp [Q]
    have hthrown : (d.labels + 1, ⟨k, .caught f, s⟩) ∈ Q := by simp [Q]
    have hdone : (d.labels + 2, ⟨k, past, s⟩) ∈ Q := by simp [Q]
    have hC : Encloses Q around.contexts s := hC.mono (List.subset_append_right _ _)
    have hregion : Encloses Q (.region final :: around.contexts) (.region k f :: s) := .region _ hC
    have hinside : Surrounds (k + 1) (.region k f :: s) := hs.succ.cons (Nat.lt_succ_self k)
    have hsnug : Snug k (.region k f :: s) := fun b hb => by
      cases hb
      exact Nat.le_refl k
    have hB : Route Q [] ⟨k, .plain, .region k f :: s⟩ (within span B) ⟨k, .plain, .region k f :: s⟩ :=
      .within .enterScope hsnug (ihB Q (k + 1) _ hregion hinside)
    have hH := ihH Q k _ hregion hsnug hinside
    cases final with
    | none =>
      have hF : F = .ops [] := ihF Q
      have hE : E = .ops [] := ihE Q
      rw [hF, hE]
      exact route_try rfl (.tryStart hcaught) hB (.tryEnd (.inl rfl)) (fun _ => .jump (.inr rfl) hdone) hH .nil
        (.inert rfl (.inl rfl)) .nil
    | some ss =>
      have hF := ihF Q k (.caught f) s (.pendingThrow hC) hs .enterCaught
      have hE := ihE Q k (.done d.labels) s hC hs .enterDone
      exact route_try rfl (.tryFinal hcaught hthrown hdone) hB (.tryEndFinal (.inl rfl)) (fun _ => .jumpLeft hdone) hH
        hF .labelLeft hE
  | debugger => exact fun k s _ _ => .op (.inert rfl (.inl rfl)) .nil
  | noHandler => exact fun k s _ _ _ => .op .throw .nil
  | handlerParam _ ih =>
    exact fun k s hC hsnug hs => .within .enterScope hsnug
      (route_append (Level.keepAs _ _ (k + 1) s hs.snug) (ih P (k + 1) s hC hs))
  | handler _ ih =>
    exact fun k s hC hsnug hs => route_append (.op (.inert rfl (.inl rfl)) .nil)
      (.within .enterScope hsnug (ih P (k + 1) s hC hs))
  | finalNone => rfl
  | finalSome _ ih => exact fun k φ s hC hs henter => .within henter hs.snug (ih P (k + 1) s hC hs.succ)
  | leaveZero => exact fun k φ s hφ hC _ => ⟨φ, s, hφ, hC, .nil⟩
  | leaveNil => exact fun k φ s hφ hC _ => ⟨φ, s, hφ, hC, .nil⟩
  | leaveLoop _ ih =>
    intro k φ s hφ hC hs
    cases hC with
    | loop _ _ hC =>
      obtain ⟨φ', t, hφ', ht, hL⟩ := ih P k .plain _ (.inl rfl) hC hs.tail
      exact ⟨φ', t, hφ', ht, route_append (.op (.loopEnd hφ) .nil) hL⟩
  | @leaveRegion kind span n final rest d F d₁ L d' _ _ ihF ihL =>
    intro k φ s hφ hC hs
    cases hC with
    | @region _ j _ s l hC =>
      cases final with
      | none =>
        -- nothing stands between this region and what is left next
        obtain ⟨φ', t, hφ', ht, hL⟩ := ihL P k .freed s (.inr rfl) hC hs.tail
        have hF : F = .ops [] := ihF P
        rw [hF]
        exact ⟨φ', t, hφ', ht, route_append (route_append (.op (.tryEnd hφ) .nil) .nil) hL⟩
      | some ss =>
        obtain ⟨φ', t, hφ', ht, hL⟩ := ihL P k .plain s (.inl rfl) hC hs.tail
        have hj : j < k := hs _ List.mem_cons_self
        have hF := ihF P k (.left j l) s hC hs.tail (.enterLeft hj)
        exact ⟨φ', t, hφ', ht, route_append (route_append (.op (.tryEndFinal hφ) .nil) hF) hL⟩
  | leavePending _ ih =>
    intro k φ s hφ hC hs
    cases hC with
    | pendingThrow hC =>
      obtain ⟨φ', t, hφ', ht, hL⟩ := ih P k .plain _ (.inl rfl) hC hs
      exact ⟨φ', t, hφ', ht, route_append (.op (.inert rfl hφ) .nil) hL⟩

/-! ### Programs -/

/-- Sites for every place of a program. -/
structure Charted (p : Program) (T : Nat → Nat → Station) : Prop where
  start : ∀ x, T x 0 = .start
  step : ∀ {x pc i}, p.instruction? x pc = some i → ∃ J, Moves J i.op (T x pc) (T x (pc + 1)) ∧
    ∀ l σ, (l, σ) ∈ J → ∃ pc', p.jumpTarget? l = some pc' ∧ T x pc' = σ
  /-- A label stands where it is looked up. -/
  label : ∀ {x pc i l}, p.instruction? x pc = some i → i.op = .label l → p.jumpTarget? l = some pc

/-- The trail of a section knows its own labels. -/
structure Trailed (s : CodeSection) (W : Trail) : Prop where
  code : W.map Prod.snd = s.code.toList.map (·.op)
  walks : Walks (posts W) .start W .start

theorem Route.trailed {s : CodeSection} (h : Route [] [] .start L .start) (hcode : L.code = s.code.toList) :
    ∃ W, Trailed s W := by
  obtain ⟨W, hops, -, hW⟩ := h
  exact ⟨W, hops.trans (congrArg _ hcode), hW (posts W) (List.nil_subset _) (List.Subset.refl _)⟩

theorem Trailed.getElem? {s : CodeSection} {W : Trail} (h : Trailed s W) (pc : Nat) :
    (W[pc]?).map Prod.snd = (s.code[pc]?).map (·.op) := by
  rw [← List.getElem?_map, h.code, List.getElem?_map, Array.getElem?_toList]

/-- Trails for the sections of a program make a chart. -/
theorem charted_of_trails {p : Program} {W : Nat → Trail}
    (hlabels : ∀ x pc i l, p.instruction? x pc = some i → i.op = .label l → p.jumpTarget? l = some pc)
    (hW : ∀ x s, p.sections[x]? = some s → Trailed s (W x)) (hnone : ∀ x, p.sections[x]? = none → W x = []) :
    Charted p fun x => (W x).stationAt .start := by
  refine ⟨fun x => ?_, fun {x pc i} hi => ?_, fun {x pc i l} => hlabels x pc i l⟩
  · cases hx : p.sections[x]? with
    | none => rw [hnone x hx]; rfl
    | some s => exact (hW x s hx).walks.head
  · obtain ⟨s, hx, hpc⟩ := Option.bind_eq_some_iff.1 hi
    have hs := hW x s hx
    have hop := hs.getElem? pc
    rw [hpc] at hop
    obtain ⟨⟨ρ, op⟩, hρ, hop⟩ := Option.map_eq_some_iff.1 hop
    have hmoves := hs.walks.step hρ
    rw [show op = i.op from hop] at hmoves
    refine ⟨posts (W x), hmoves, fun l σ hl => ?_⟩
    obtain ⟨n, hn⟩ := List.mem_iff_getElem?.1 (mem_posts hl)
    have hlabel := hs.getElem? n
    rw [hn] at hlabel
    obtain ⟨i', hi', hop'⟩ := Option.map_eq_some_iff.1 hlabel.symm
    refine ⟨n, hlabels x n i' l (Option.bind_eq_some_iff.2 ⟨s, hx, hi'⟩) hop', ?_⟩
    simp only [Trail.stationAt, hn, Option.map_some, Option.getD_some]

end Compile

open Compile Listing

/-- The sections of a compiled script have trails. -/
theorem Script.exists_trail {script : Script} {p : Program} (hc : script.compile = .ok p) (x : Nat) :
    ∃ W : Trail, (∀ s, p.sections[x]? = some s → Trailed s W) ∧ (p.sections[x]? = none → W = []) := by
  obtain ⟨hscript, hbodies⟩ := sections_of_compile hc
  cases hx : p.sections[x]? with
  | none => exact ⟨[], nofun, fun _ => rfl⟩
  | some s =>
    have hroute : ∃ L, Route [] [] .start L .start ∧ L.code = s.code.toList := by
      cases x with
      | zero =>
        obtain ⟨L, hL, hcode⟩ := emits_draft script
        rw [hscript] at hx
        cases hx
        exact ⟨L ++ asm .unknown [.eof], route_append (hL.routed [] 0 [] .nil (.nil 0)) (.op .eof .nil), hcode.symm⟩
      | succ i =>
        rw [hbodies] at hx
        obtain ⟨b, hb, rfl⟩ := Option.map_eq_some_iff.1 hx
        have hevery : Every (fun _ => True) script.nodes := fun _ _ => trivial
        obtain ⟨kind, ss, e, hcompiled, -⟩ := compiled_body hevery hb
        obtain ⟨span, d, L, d₁, F, hL, hF, hcode⟩ := hcompiled.emits
        exact ⟨F, hF.routed [] (hL.routed [] 0 [] .nil (.nil 0)), hcode⟩
    obtain ⟨L, hL, hcode⟩ := hroute
    obtain ⟨W, hW⟩ := hL.trailed hcode
    exact ⟨W, fun s' hs' => by cases hs'; exact hW, nofun⟩

/-- **A compiled program has a station for every place**, whatever its expressions are. -/
theorem Script.exists_chart {script : Script} {p : Program} (hc : script.compile = .ok p) : ∃ T, Charted p T := by
  choose W hsome hnone using Script.exists_trail hc
  obtain ⟨-, -, -, hlabels⟩ := assemble_ok (program_of_compile hc)
  exact ⟨_, charted_of_trails hlabels hsome hnone⟩

end ScriptMachine
