import Mathlib.Data.List.Nodup
import ScriptMachine.Proofs.Compile.Emission
import ScriptMachine.Proofs.Compile.Layout

/-!
# Sections — the layout of a compiled program

Every body that the generator fills has shapes from its first instruction on and ends with a return;
the script ends with its end. `Laid` collects what a program needs of a layout: shapes lead from each
instruction to the next, labels are found where the shapes say, and no section runs out of code. A
compiled program has such a layout (`Script.exists_layout`), because `Program.assemble` accepts only
labels that are defined once and in the section that names them.
-/

namespace ScriptMachine.Compile

open Listing

/-! ### Bodies -/

/-- A body as the rules give it, with the draft that compiling it left: it belongs to a node that
passes a test, and so do the nodes in it. -/
structure Compiled (ok : Node → Prop) (kind : BodyKind) (ss : List Stmt) (d' : Draft) (b : Body) : Prop where
  borne : ∃ n, ok n ∧ Bears n b.name b.params kind ss
  every : Every ok (stmtsNodes ss)
  emits : ∃ span d L d₁ F, Emits (.stmts { body := kind } ss) d L d₁ ∧
    Emits (.finish kind span L) d₁ F d' ∧ F.code = b.code

/-- The bodies of a draft stay, and those that are added are compiled. -/
structure Fills (ok : Node → Prop) (d d' : Draft) : Prop where
  pool : d.constants.toList <+: d'.constants.toList
  size : d.bodies.size ≤ d'.bodies.size
  kept : ∀ i < d.bodies.size, d'.bodies[i]? = d.bodies[i]?
  added : ∀ i b, d.bodies.size ≤ i → d'.bodies[i]? = some b →
    ∃ kind ss e, Compiled ok kind ss e b ∧ e.constants.toList <+: d'.constants.toList

variable {ok : Node → Prop}

theorem Fills.of_eq {d d' : Draft} (hpool : d.constants.toList <+: d'.constants.toList)
    (hb : d'.bodies = d.bodies) : Fills ok d d' where
  pool := hpool
  size := Nat.le_of_eq (by rw [hb])
  kept _ _ := by rw [hb]
  added i b hi hib := by
    rw [hb, Array.getElem?_eq_none hi] at hib
    cases hib

theorem Fills.trans {d₁ d₂ d₃ : Draft} (h : Fills ok d₁ d₂) (h' : Fills ok d₂ d₃) : Fills ok d₁ d₃ where
  pool := h.pool.trans h'.pool
  size := Nat.le_trans h.size h'.size
  kept i hi := by rw [h'.kept i (Nat.lt_of_lt_of_le hi h.size), h.kept i hi]
  added i b hi hib := by
    rcases Nat.lt_or_ge i d₂.bodies.size with hlt | hge
    · rw [h'.kept i hlt] at hib
      obtain ⟨kind, ss, e, hcompiled, he⟩ := h.added i b hi hib
      exact ⟨kind, ss, e, hcompiled, he.trans h'.pool⟩
    · exact h'.added i b hge hib

theorem bodies_poolIndex (lit : Literal) (d : Draft) : (poolIndex lit d).2.bodies = d.bodies := by
  unfold poolIndex
  cases d.constants.findIdx? fun c => c.key == lit.key <;> rfl

/-- A body that is opened, compiled and closed. -/
theorem Fills.body {span : Span} {name : String} {params : List String} {kind : BodyKind}
    {ss : List Stmt} {n : Node} {d d₁ d₂ : Draft} {L F : Listing} (hn : ok n)
    (hb : Bears n name params kind ss) (hss : Every ok (stmtsNodes ss))
    (hL : Emits (.stmts { body := kind } ss) (openBody name params d).2 L d₁)
    (hF : Emits (.finish kind span L) d₁ F d₂) (h₁ : Fills ok (openBody name params d).2 d₁)
    (h₂ : Fills ok d₁ d₂) : Fills ok d (closeBody d.bodies.size F.code d₂).2 := by
  have h := h₁.trans h₂
  have hopen : (openBody name params d).2.bodies.size = d.bodies.size + 1 := by simp [openBody]
  have hclose : ∀ i, (closeBody d.bodies.size F.code d₂).2.bodies[i]? =
      if d.bodies.size = i then d₂.bodies[i]?.map fun b => { b with code := F.code }
      else d₂.bodies[i]? := fun i => by
    simp only [closeBody, Array.getElem?_modify]
  refine ⟨h.pool, ?_, fun i hi => ?_, fun i b hi hib => ?_⟩
  · have hs := h.size
    rw [hopen] at hs
    have hsize : (closeBody d.bodies.size F.code d₂).2.bodies.size = d₂.bodies.size := by
      simp [closeBody]
    omega
  · rw [hclose, if_neg (by omega), h.kept i (by omega)]
    simp only [openBody, Array.getElem?_push]
    rw [if_neg (by omega)]
  · rw [hclose] at hib
    by_cases he : d.bodies.size = i
    · rw [if_pos he, ← he, h.kept _ (by omega)] at hib
      simp only [openBody, Array.getElem?_push_size, Option.map_some, Option.some.injEq] at hib
      subst hib
      exact ⟨kind, ss, d₂, ⟨⟨n, hn, hb⟩, hss, span, _, L, d₁, F, hL, hF, rfl⟩, List.prefix_refl _⟩
    · rw [if_neg he] at hib
      exact h.added i b (by omega) hib

theorem advances_fills : Advances ok (Fills ok) where
  refl _ := .of_eq (List.prefix_refl _) rfl
  trans := Fills.trans
  pool lit d := .of_eq (prefix_poolIndex lit d) (bodies_poolIndex lit d)
  aside hc hb _ := .of_eq (hc ▸ List.prefix_refl _) hb
  body hn hb hss hL hF h₁ h₂ := .body hn hb hss hL hF h₁ h₂

/-- The listing that the rules give to a body with its return. -/
def Completes (F : Listing) : Prop :=
  ∃ kind ss span d L d₁ d₂, Emits (.stmts { body := kind } ss) d L d₁ ∧
    Emits (.finish kind span L) d₁ F d₂

/-- Code of a body whose shapes are known. -/
def Finished (pool : Nat) (code : Code) : Prop :=
  ∃ F, F.code = code ∧ Completes F ∧ Flow ⟨pool, false, []⟩ [] .empty F .empty ∧
    lastOp? code = some .ret

theorem Compiled.finished {kind : BodyKind} {ss : List Stmt} {e : Draft} {b : Body} {pool : Nat}
    (h : Compiled (·.sparesIndexer) kind ss e b) (hpool : e.constants.size ≤ pool) :
    Finished pool b.code := by
  obtain ⟨span, d, L, d₁, F, hL, hF, hcode⟩ := h.emits
  have htyped := hL.typed (h.every.append .nil) ⟨pool, false, []⟩ (Nat.le_trans hF.pool_le hpool)
    (fun h => nomatch h) 0 [] .nil
  obtain ⟨hflow, hlast⟩ := hF.typed .nil ⟨pool, false, []⟩ hpool rfl htyped
  exact ⟨F, hcode, ⟨kind, ss, span, d, L, d₁, e, hL, hF⟩, hflow, hcode ▸ hlast⟩

/-! ### Programs -/

theorem nodup_of_repeatedLabel? {seen : List Nat} {sites : List (Nat × LabelSite)}
    (h : repeatedLabel? seen sites = none) :
    (∀ l ∈ sites.map Prod.fst, l ∉ seen) ∧ (sites.map Prod.fst).Nodup := by
  induction sites generalizing seen with
  | nil => simp
  | cons site rest ih =>
    obtain ⟨l, place⟩ := site
    unfold repeatedLabel? at h
    by_cases hl : seen.contains l = true
    · rw [if_pos hl] at h
      cases h
    · rw [if_neg hl] at h
      obtain ⟨hseen, hnodup⟩ := ih h
      have hl : l ∉ seen := by simpa using hl
      refine ⟨fun l' hl' => ?_, ?_⟩
      · rcases List.mem_cons.1 hl' with rfl | hl'
        · exact hl
        · exact fun hmem => hseen l' hl' (List.mem_cons_of_mem _ hmem)
      · exact List.nodup_cons.2 ⟨fun hmem => hseen l hmem List.mem_cons_self, hnodup⟩

theorem lookup_of_mem {sites : List (Nat × LabelSite)} (h : (sites.map Prod.fst).Nodup) {l : Nat}
    {site : LabelSite} (hm : (l, site) ∈ sites) : sites.lookup l = some site := by
  induction sites with
  | nil => cases hm
  | cons first rest ih =>
    obtain ⟨l', site'⟩ := first
    obtain ⟨hnot, hrest⟩ := List.nodup_cons.1 h
    rcases List.mem_cons.1 hm with he | hm
    · cases he
      simp
    · have hmem : l ∈ rest.map Prod.fst := List.mem_map.2 ⟨_, hm, rfl⟩
      have hne : l ≠ l' := fun he => hnot (he ▸ hmem)
      rw [List.lookup_cons, beq_eq_false_iff_ne.2 hne]
      exact ih hrest hm

/-- An accepted program is made of the given parts, and each label stands where it is looked up. -/
theorem assemble_ok {sections : Array CodeSection} {constants : Array Value}
    {functions : Array ScriptFunction} {classes : List (String × List Nat)} {p : Program}
    (h : Program.assemble sections constants functions classes = .ok p) :
    p.sections = sections ∧ p.constants = constants ∧ p.functions = functions ∧
      ∀ x pc i l, p.instruction? x pc = some i → i.op = .label l → p.jumpTarget? l = some pc := by
  unfold Program.assemble at h
  by_cases hs : sections.isEmpty = true
  · rw [if_pos hs] at h
    cases h
  · rw [if_neg hs] at h
    simp only at h
    cases hr : repeatedLabel? [] (sections.toList.zipIdx.flatMap fun x => x.1.labelSites x.2) with
    | some l =>
      rw [hr] at h
      cases h
    | none =>
      rw [hr] at h
      simp only at h
      cases hf : sections.toList.zipIdx.findSome? (fun x => x.1.strayTarget?
          (sections.toList.zipIdx.flatMap fun x => x.1.labelSites x.2) x.2) with
      | some breach =>
        rw [hf] at h
        cases h
      | none =>
        rw [hf] at h
        cases h
        refine ⟨rfl, rfl, rfl, fun x pc i l hi hl => ?_⟩
        obtain ⟨s, hx, hpc⟩ := Option.bind_eq_some_iff.1 hi
        have hx : sections.toList[x]? = some s := by rw [Array.getElem?_toList]; exact hx
        have hpc : s.code.toList[pc]? = some i := by rw [Array.getElem?_toList]; exact hpc
        have hsite : (l, (⟨x, pc⟩ : LabelSite)) ∈ sections.toList.zipIdx.flatMap
            fun x => x.1.labelSites x.2 := by
          refine List.mem_flatMap.2 ⟨(s, x), List.mem_zipIdx_iff_getElem?.2 hx, ?_⟩
          exact List.mem_filterMap.2 ⟨(i, pc), List.mem_zipIdx_iff_getElem?.2 hpc, by simp only [hl]⟩
        have hlookup := lookup_of_mem (nodup_of_repeatedLabel? hr).2 hsite
        rw [Program.jumpTarget?, hlookup]
        rfl

/-- A label is found in its section, where a shape is the given one. -/
def Leads (p : Program) (T : Nat → Nat → Shape) (x l : Nat) (σ : Shape) : Prop :=
  ∃ pc, p.jumpTarget? l = some pc ∧ T x pc = σ ∧ (p.instruction? x pc).isSome = true

/-- Shapes for every place of a program. -/
structure Laid (p : Program) (T : Nat → Nat → Shape) : Prop where
  start : ∀ x, T x 0 = .empty
  step : ∀ {x pc i}, p.instruction? x pc = some i →
    ∃ J, Step ⟨p.constants.size, x == 0, J⟩ i.op (T x pc) (T x (pc + 1)) ∧
      ∀ l σ, (l, σ) ∈ J → Leads p T x l σ
  /-- Only a return and the end of the script stand last. -/
  next : ∀ {x pc i}, p.instruction? x pc = some i → i.op ≠ .ret → i.op ≠ .eof →
    (p.instruction? x (pc + 1)).isSome = true

/-- The shape at a place of a sheet that ends with nothing on the stack. -/
def Sheet.shapeAt (W : Sheet) (pc : Nat) : Shape := ((shapes W .empty)[pc]?).getD .empty

/-- A section with its listing and its sheet. -/
structure Sheeted (pool x : Nat) (s : CodeSection) (L : Listing) (W : Sheet) : Prop where
  code : L.code = s.code.toList
  flows : Flows ⟨pool, x == 0, marks W⟩ .empty L .empty W
  last : ∃ op, lastOp? L.code = some op ∧ (op = .ret ∨ op = .eof)

theorem Sheeted.getElem? {pool x : Nat} {s : CodeSection} {L : Listing} {W : Sheet}
    (h : Sheeted pool x s L W) (pc : Nat) :
    (W[pc]?).map Prod.snd = (s.code[pc]?).map (·.op) := by
  rw [← List.getElem?_map, h.flows.chain.2, h.code, List.getElem?_map, Array.getElem?_toList]

/-- Sheets for the sections of a program make a layout. -/
theorem laid_of_sheets {p : Program} {W : Nat → Sheet}
    (hlabels : ∀ x pc i l, p.instruction? x pc = some i → i.op = .label l → p.jumpTarget? l = some pc)
    (hW : ∀ x s, p.sections[x]? = some s → ∃ L, Sheeted p.constants.size x s L (W x))
    (hnone : ∀ x, p.sections[x]? = none → W x = []) : Laid p fun x => (W x).shapeAt := by
  refine ⟨fun x => ?_, fun {x pc i} hi => ?_, fun {x pc i} hi hret heof => ?_⟩
  · cases hx : p.sections[x]? with
    | none => rw [hnone x hx]; rfl
    | some s =>
      obtain ⟨L, hs⟩ := hW x s hx
      rw [Sheet.shapeAt, hs.flows.chain.1.head]
      rfl
  · obtain ⟨s, hx, hpc⟩ := Option.bind_eq_some_iff.1 hi
    obtain ⟨L, hs⟩ := hW x s hx
    have hop := hs.getElem? pc
    rw [hpc] at hop
    obtain ⟨⟨ρ, op⟩, hρ, hop⟩ := Option.map_eq_some_iff.1 hop
    obtain ⟨hshape, ρ', hnext, hstep⟩ := hs.flows.chain.1.step hρ
    refine ⟨marks (W x), ?_, fun l σ hl => ?_⟩
    · simp only [Sheet.shapeAt, hshape, hnext, Option.getD_some]
      exact (show op = i.op from hop) ▸ hstep
    · obtain ⟨n, hn⟩ := List.mem_iff_getElem?.1 (mem_marks.1 hl)
      have hlabel := hs.getElem? n
      rw [hn] at hlabel
      obtain ⟨j, hj, hjop⟩ := Option.map_eq_some_iff.1 hlabel.symm
      have hinst : p.instruction? x n = some j := Option.bind_eq_some_iff.2 ⟨s, hx, hj⟩
      refine ⟨n, hlabels x n j l hinst hjop, ?_, by rw [hinst]; rfl⟩
      simp only [Sheet.shapeAt, (hs.flows.chain.1.step hn).1, Option.getD_some]
  · obtain ⟨s, hx, hpc⟩ := Option.bind_eq_some_iff.1 hi
    obtain ⟨L, hs⟩ := hW x s hx
    obtain ⟨op, hlast, hend⟩ := hs.last
    obtain ⟨hlt, hget⟩ := Array.getElem?_eq_some_iff.1 hpc
    have hne : pc + 1 ≠ s.code.size := by
      intro he
      have hl : lastOp? L.code = some i.op := by
        rw [lastOp?, hs.code, List.getLast?_eq_getElem?, Array.length_toList, ← he,
          Nat.add_sub_cancel, Array.getElem?_toList, hpc]
        rfl
      rw [hl] at hlast
      cases hlast
      exact hend.elim hret heof
    have hlt' : pc + 1 < s.code.size := by omega
    rw [Program.instruction?, hx]
    simp [hlt']

/-! ### Scripts -/

/-- The listing of statements in order has the shape of its beginning before every statement. -/
theorem follows_seams (around : Surroundings) (ss : List Stmt) (d : Draft) :
    ∃ L, Emits (.stmts around ss) d L (stmts around ss d).2 ∧ L.code = (stmts around ss d).1 ∧
      ∀ P σ τ W, Flows P σ L τ W → ∀ before after, ss = before ++ after →
        (shapes W τ)[(stmts around before d).1.length]? = some σ := by
  induction ss generalizing d with
  | nil =>
    obtain ⟨L, hL, cL⟩ := follows_stmts around [] d
    refine ⟨L, hL, cL, fun P σ τ W hW before after hss => ?_⟩
    obtain ⟨rfl, -⟩ := List.append_eq_nil_iff.1 hss.symm
    rw [stmts]
    exact hW.chain.1.head
  | cons s rest ih =>
    obtain ⟨span, k⟩ := s
    obtain ⟨A, hA, cA⟩ := follows_stmtKind around span k d
    obtain ⟨B, hB, cB, hseams⟩ := ih (stmtKind around span k d).2
    have hstmts : ∀ ss, stmts around (.node span k :: ss) d =
        (markFirst (stmtKind around span k d).1 ++ (stmts around ss (stmtKind around span k d).2).1,
          (stmts around ss (stmtKind around span k d).2).2) := fun ss => by
      rw [stmts, stmt]
      rfl
    rw [hstmts]
    refine ⟨.stmt A ++ B, .stmtsCons (.stmt hA) hB, by simp only [code_append, code_stmt, cA, cB],
      fun P σ τ W hW before after hss => ?_⟩
    cases hW with
    | append hV hW =>
      cases hV with
      | stmt hV =>
        cases before with
        | nil =>
          rw [stmts]
          exact ((Flows.stmt hV).append hW).chain.1.head
        | cons s' before =>
          obtain ⟨rfl, hrest⟩ := List.cons_eq_cons.1 hss
          rw [hstmts, List.length_append, ← cA, ← code_stmt, ← (Flows.stmt hV).length,
            getElem?_shapes_right]
          exact hseams P σ τ _ hW before after hrest

end ScriptMachine.Compile

namespace ScriptMachine

open Compile Listing

/-- The listing of a section: the statements of the script and its end, or a body. -/
def Script.Lists (script : Script) : Nat → Listing → Prop
  | 0, L => ∃ K, Emits (.stmts { body := .script } script.body) {} K script.draft.2 ∧
      L = K ++ asm .unknown [.eof]
  | _ + 1, L => Completes L

theorem Script.program_of_compile {script : Script} {p : Program} (h : script.compile = .ok p) :
    script.draft.2.program script.draft.1 = .ok p := by
  unfold Script.compile at h
  simp only at h
  split at h
  · exact h
  · cases h

theorem Script.constants_eq {script : Script} {p : Program} (h : script.compile = .ok p) :
    p.constants = script.draft.2.constants.mapIdx Literal.value := (assemble_ok (program_of_compile h)).2.1

theorem Script.functions_eq {script : Script} {p : Program} (h : script.compile = .ok p) :
    p.functions = script.draft.2.bodies.mapIdx Body.function := (assemble_ok (program_of_compile h)).2.2.1

/-- The script in front of some of its statements: the place where they begin. -/
def Script.seam (before : List Stmt) : Nat := ((stmts { body := .script } before).run {}).1.length

/-- A flow without labels from outside has a sheet that knows its own labels. -/
theorem Compile.Flow.sheet {pool : Nat} {b : Bool} {σ τ : Shape} {L : Listing}
    (h : Flow ⟨pool, b, []⟩ [] σ L τ) : ∃ W, Flows ⟨pool, b, marks W⟩ σ L τ W := by
  obtain ⟨W, -, hW⟩ := h
  exact ⟨W, hW (marks W) (List.nil_subset _) (List.Subset.refl _)⟩

theorem Script.sections_of_compile {script : Script} {p : Program} (h : script.compile = .ok p) :
    p.sections[0]? = some ⟨CodeSection.scriptName, script.draft.1.toArray⟩ ∧
      ∀ i, p.sections[i + 1]? = (script.draft.2.bodies[i]?).map fun b => ⟨b.name, b.code.toArray⟩ := by
  obtain ⟨hsections, -⟩ := assemble_ok (program_of_compile h)
  rw [hsections]
  refine ⟨by rw [Array.getElem?_append_left (by simp)]; rfl, fun i => ?_⟩
  rw [Array.getElem?_append_right (by simp)]
  simp

/-- The bodies of a script come from its nodes. -/
theorem Script.compiled_body {ok : Node → Prop} {script : Script} (hs : Every ok script.nodes) {i : Nat}
    {b : Body} (hb : script.draft.2.bodies[i]? = some b) :
    ∃ kind ss e, Compiled ok kind ss e b ∧ e.constants.toList <+: script.draft.2.constants.toList := by
  obtain ⟨L, hL, -⟩ := emits_draft script
  exact (hL.advance advances_fills (hs.append .nil) trivial).added i b (Nat.zero_le _) hb

/-- The bodies of a compiled script are finished. -/
theorem Script.finished_of_compile {script : Script} {p : Program} (hc : script.compile = .ok p)
    (hs : script.sparesIndexer = true) {i : Nat} {b : Body} (hb : script.draft.2.bodies[i]? = some b) :
    Finished p.constants.size b.code := by
  have hconstants := constants_eq hc
  obtain ⟨kind, ss, e, hcompiled, he⟩ := compiled_body (List.all_eq_true.1 hs) hb
  have hsize := he.length_le
  rw [Array.length_toList, Array.length_toList] at hsize
  exact hcompiled.finished (by rw [hconstants, Array.size_mapIdx]; exact hsize)

/-- The sections of a compiled script have sheets. -/
theorem Script.exists_sheet {script : Script} {p : Program} (hc : script.compile = .ok p)
    (hs : script.sparesIndexer = true) (x : Nat) :
    ∃ W : Sheet, (∀ s, p.sections[x]? = some s →
        ∃ L, script.Lists x L ∧ Sheeted p.constants.size x s L W) ∧
      (p.sections[x]? = none → W = []) ∧
      (x = 0 → ∀ before after, script.body = before ++ after →
        W.shapeAt (Script.seam before) = .empty) := by
  have hevery : Every (·.sparesIndexer) script.nodes := List.all_eq_true.1 hs
  have hconstants := constants_eq hc
  obtain ⟨hscript, hbodies⟩ := sections_of_compile hc
  have hpool : script.draft.2.constants.size ≤ p.constants.size := by rw [hconstants]; simp
  obtain ⟨L, hL, cL, hseams⟩ := follows_seams { body := .script } script.body {}
  have hdraft : script.draft.2 = (stmts { body := .script } script.body {}).2 := rfl
  have hcode : script.draft.1 = L.code ++ emit .unknown [.eof] := by rw [cL]; rfl
  rw [← hdraft] at hL
  cases x with
  | zero =>
    have hflow := hL.typed (hevery.append .nil) ⟨p.constants.size, true, []⟩ hpool
      (fun _ => rfl) 0 [] .nil
    have hend : Flow ⟨p.constants.size, true, []⟩ [] .empty (L ++ asm .unknown [.eof]) .empty :=
      flow_append hflow (.op (.eof rfl) .nil)
    obtain ⟨W, hW⟩ := hend.sheet
    refine ⟨W, fun s hx => ⟨_, ⟨L, hL, rfl⟩, ?_, hW, .eof, ?_, .inr rfl⟩, fun hx => ?_, fun _ => ?_⟩
    · rw [hscript] at hx
      cases hx
      exact hcode.symm
    · simp [lastOp?, emit]
    · rw [hscript] at hx
      cases hx
    · intro before after hbody
      cases hW with
      | @append _ ρ _ _ _ V W hV hW =>
        have hseam : (shapes V ρ)[Script.seam before]? = some .empty :=
          hseams _ _ _ _ hV before after hbody
        have hlt := (List.getElem?_eq_some_iff.1 hseam).1
        rw [length_shapes] at hlt
        have hat : (shapes (V ++ W) .empty)[Script.seam before]? = some .empty := by
          rw [getElem?_shapes_append hW.chain.1 (Nat.le_of_lt_succ hlt)]
          exact hseam
        rw [Sheet.shapeAt, hat]
        rfl
  | succ i =>
    cases hb : script.draft.2.bodies[i]? with
    | none =>
      refine ⟨[], fun s hx => ?_, fun _ => rfl, fun h => absurd h (Nat.succ_ne_zero i)⟩
      rw [hbodies, hb] at hx
      cases hx
    | some b =>
      obtain ⟨F, hF, hcompletes, hflow, hlast⟩ := finished_of_compile hc hs hb
      obtain ⟨W, hW⟩ := hflow.sheet
      refine ⟨W, fun s hx => ⟨F, hcompletes, ?_, hW, .ret, by rw [hF]; exact hlast, .inl rfl⟩,
        fun hx => ?_, fun h => absurd h (Nat.succ_ne_zero i)⟩
      · rw [hbodies, hb] at hx
        cases hx
        exact hF
      · rw [hbodies, hb] at hx
        cases hx

/-- **A compiled program has a layout.** The statements of each section end at the shape at which they
begin, and nothing lies on the stack between the statements of the script. -/
theorem Script.exists_layout {script : Script} {p : Program} (hc : script.compile = .ok p)
    (hs : script.sparesIndexer = true) :
    ∃ T, Laid p T ∧
      (∀ x s, p.sections[x]? = some s → ∃ L, script.Lists x L ∧ L.code = s.code.toList ∧
        ∀ r ∈ L.statements 0, T x r.1 = T x r.2) ∧
      ∀ before after, script.body = before ++ after → T 0 (Script.seam before) = .empty := by
  choose W hsheet hnone hseams using Script.exists_sheet hc hs
  obtain ⟨-, -, -, hlabels⟩ := assemble_ok (program_of_compile hc)
  refine ⟨fun x => (W x).shapeAt, laid_of_sheets hlabels (fun x s hx => ?_) hnone, fun x s hx => ?_,
    hseams 0 rfl⟩
  · obtain ⟨L, -, h⟩ := hsheet x s hx
    exact ⟨L, h⟩
  · obtain ⟨L, hL, h⟩ := hsheet x s hx
    refine ⟨L, hL, h.code, fun r hr => ?_⟩
    obtain ⟨i, j, rfl, -, -, he⟩ := h.flows.statements 0 r hr
    simp only [Nat.zero_add, Sheet.shapeAt, he]

/-- No constant of a compiled program is a function. -/
theorem Script.constants_of_compile {script : Script} {p : Program} (hc : script.compile = .ok p)
    {v : Value} (hv : v ∈ p.constants) : ∀ id f, v ≠ .function id f := by
  obtain ⟨-, hconstants, -⟩ := assemble_ok (program_of_compile hc)
  rw [hconstants] at hv
  obtain ⟨i, hi, rfl⟩ := Array.mem_mapIdx.1 hv
  intro id f
  cases script.draft.2.constants[i] <;> exact nofun

/-- The functions of a compiled program are its bodies, each with code. -/
theorem Script.functions_of_compile {script : Script} {p : Program} (hc : script.compile = .ok p)
    (hs : script.sparesIndexer = true) {f : ScriptFunction} (hf : f ∈ p.functions) :
    f.sectionIndex ≠ 0 ∧ (p.instruction? f.sectionIndex 0).isSome = true := by
  obtain ⟨-, -, hfunctions, -⟩ := assemble_ok (program_of_compile hc)
  obtain ⟨-, hbodies⟩ := sections_of_compile hc
  rw [hfunctions] at hf
  obtain ⟨i, hi, rfl⟩ := Array.mem_mapIdx.1 hf
  refine ⟨Nat.succ_ne_zero i, ?_⟩
  have hb := Array.getElem?_eq_getElem hi
  obtain ⟨-, -, -, -, hlast⟩ := finished_of_compile hc hs hb
  obtain ⟨last, hmem, -⟩ := Option.map_eq_some_iff.1 hlast
  have hne := List.length_pos_of_mem (List.mem_of_getLast? hmem)
  have hsection : p.sections[(Body.function i script.draft.2.bodies[i]).sectionIndex]? =
      some ⟨script.draft.2.bodies[i].name, script.draft.2.bodies[i].code.toArray⟩ := by
    rw [show (Body.function i script.draft.2.bodies[i]).sectionIndex = i + 1 from rfl, hbodies, hb]
    rfl
  rw [Program.instruction?, hsection]
  simp [hne]

end ScriptMachine
