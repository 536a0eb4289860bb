import Mathlib.Data.List.Sigma
import ScriptMachine.Proofs.Compile.Labels

/-!
# Assembly — what the checks of the assembler mean

`Program.assemble` works on lists of label sites. Here its verdict is read off the code itself: sections
are accepted exactly when there is a script among them, no label stands at two places, and every label
that an instruction names stands in the section of that instruction (`assemble_ok_iff`). In an accepted
program the table of labels is then right for every instruction that uses it (`Assembled.resolves`).
-/

namespace ScriptMachine

open Compile

/-- A label is defined at a place of some sections. -/
def LabelAt (sections : Array CodeSection) (l x pc : Nat) : Prop :=
  ∃ s i, sections[x]? = some s ∧ s.code[pc]? = some i ∧ i.op = .label l

/-- Sections that make a program: there is a script, no label stands at two places, and what an
instruction names stands in its own section. -/
structure Linked (sections : Array CodeSection) : Prop where
  script : 0 < sections.size
  once : ∀ {l x pc x' pc'}, LabelAt sections l x pc → LabelAt sections l x' pc' → x = x' ∧ pc = pc'
  own : ∀ {x s i l}, sections[x]? = some s → i ∈ s.code → l ∈ i.op.targets → ∃ pc, LabelAt sections l x pc

/-! ### The table of labels -/

/-- The table of labels of some sections. -/
def siteTable (sections : Array CodeSection) : List (Nat × LabelSite) :=
  sections.toList.zipIdx.flatMap fun x => x.1.labelSites x.2

/-- What the assembler has checked of a program it made. -/
theorem assemble_eq_ok {sections : Array CodeSection} {constants : Array Value}
    {functions : Array ScriptFunction} {classes : List (String × List Nat)} {p : Program}
    (h : Program.assemble sections constants functions classes = .ok p) :
    sections.isEmpty = false ∧ repeatedLabel? [] (siteTable sections) = none ∧
      sections.toList.zipIdx.findSome? (fun x => x.1.strayTarget? (siteTable sections) x.2) = none ∧
      p = ⟨sections, constants, functions, classes, siteTable sections⟩ := by
  unfold Program.assemble at h
  split at h
  · cases h
  · next hne =>
    simp only at h
    split at h
    · cases h
    · next hrepeat =>
      split at h
      · cases h
      · next hstray =>
        cases h
        exact ⟨by simpa using hne, hrepeat, hstray, rfl⟩

theorem mem_labelSites {s : CodeSection} {x l : Nat} {site : LabelSite} :
    (l, site) ∈ s.labelSites x ↔
      site.sectionIndex = x ∧ ∃ i, s.code[site.pc]? = some i ∧ i.op = .label l := by
  constructor
  · intro h
    refine ⟨section_of_mem_labelSites h, ?_⟩
    obtain ⟨⟨i, pc⟩, hi, hsite⟩ := List.mem_filterMap.1 h
    rw [List.mem_zipIdx_iff_getElem?, Array.getElem?_toList] at hi
    simp only at hsite
    split at hsite
    · next hop =>
      cases hsite
      exact ⟨i, hi, hop⟩
    · cases hsite
  · rintro ⟨rfl, i, hi, hop⟩
    refine List.mem_filterMap.2 ⟨(i, site.pc), ?_, by simp only [hop]⟩
    rw [List.mem_zipIdx_iff_getElem?, Array.getElem?_toList]
    exact hi

/-- The table lists the labels where they stand. -/
theorem mem_siteTable {sections : Array CodeSection} {l x pc : Nat} :
    (l, ⟨x, pc⟩) ∈ siteTable sections ↔ LabelAt sections l x pc := by
  rw [siteTable, List.mem_flatMap]
  constructor
  · rintro ⟨⟨s, y⟩, hs, hsite⟩
    obtain ⟨rfl, i, hi, hop⟩ := mem_labelSites.1 hsite
    rw [List.mem_zipIdx_iff_getElem?, Array.getElem?_toList] at hs
    exact ⟨s, i, hs, hi, hop⟩
  · rintro ⟨s, i, hs, hi, hop⟩
    refine ⟨(s, x), ?_, mem_labelSites.2 ⟨rfl, i, hi, hop⟩⟩
    rw [List.mem_zipIdx_iff_getElem?, Array.getElem?_toList]
    exact hs

theorem pairwise_zipIdx {α : Type} (l : List α) : l.zipIdx.Pairwise fun a b => a.2 ≠ b.2 :=
  List.pairwise_map.1 (List.nodup_zipIdx_map_snd l)

/-- No place is listed twice. -/
theorem nodup_siteTable (sections : Array CodeSection) : (siteTable sections).Nodup := by
  refine List.nodup_flatMap.2 ⟨fun x _ => ?_, ?_⟩
  · refine (pairwise_zipIdx _).filterMap _ ?_
    rintro ⟨i, pc⟩ ⟨i', pc'⟩ hne site hsite site' hsite' he
    -- the site of an instruction keeps its place
    simp only at hsite hsite'
    split at hsite <;> cases hsite
    split at hsite' <;> cases hsite'
    exact hne (congrArg (·.2.pc) he)
  · refine (pairwise_zipIdx _).imp fun {a b} hne => ?_
    rintro ⟨l, site⟩ ha hb
    exact hne ((mem_labelSites.1 ha).1.symm.trans (mem_labelSites.1 hb).1)

/-- A label is listed once iff it stands at one place. -/
theorem nodup_keys_iff {sections : Array CodeSection} :
    ((siteTable sections).map Prod.fst).Nodup ↔
      ∀ {l x pc x' pc'}, LabelAt sections l x pc → LabelAt sections l x' pc' → x = x' ∧ pc = pc' := by
  constructor
  · intro hn l x pc x' pc' h h'
    have he := List.inj_on_of_nodup_map hn (mem_siteTable.2 h) (mem_siteTable.2 h') rfl
    cases he
    exact ⟨rfl, rfl⟩
  · intro honce
    refine (nodup_siteTable sections).map_on ?_
    rintro ⟨l, x, pc⟩ h ⟨l', x', pc'⟩ h' rfl
    obtain ⟨rfl, rfl⟩ := honce (mem_siteTable.1 h) (mem_siteTable.1 h')
    rfl

/-- A label that is looked up with its section stands in it. -/
theorem exists_labelAt_of_lookup {sections : Array CodeSection} {l x : Nat}
    (h : ((siteTable sections).lookup l).map (·.sectionIndex) = some x) :
    ∃ pc, LabelAt sections l x pc := by
  obtain ⟨⟨y, pc⟩, hsite, rfl⟩ := Option.map_eq_some_iff.1 h
  obtain ⟨before, after, hsplit, -⟩ := List.lookup_eq_some_iff.1 hsite
  exact ⟨pc, mem_siteTable.1 (hsplit ▸ List.mem_append_right _ List.mem_cons_self)⟩

/-! ### Acceptance -/

/-- What the assembler accepts is linked. -/
theorem linked_of_assemble {sections : Array CodeSection} {constants : Array Value}
    {functions : Array ScriptFunction} {classes : List (String × List Nat)} {p : Program}
    (h : Program.assemble sections constants functions classes = .ok p) : Linked sections := by
  obtain ⟨hne, hrepeat, hstray, -⟩ := assemble_eq_ok h
  refine ⟨?_, nodup_keys_iff.1 (nodup_of_repeatedLabel? hrepeat).2, fun {x s i l} hs hi hl => ?_⟩
  · simpa [Array.isEmpty, Nat.pos_iff_ne_zero] using hne
  · have hmem : (s, x) ∈ sections.toList.zipIdx := by
      rw [List.mem_zipIdx_iff_getElem?, Array.getElem?_toList]
      exact hs
    have hcode := List.findSome?_eq_none_iff.1 (List.findSome?_eq_none_iff.1 hstray _ hmem) i
      (Array.mem_toList_iff.2 hi)
    have hfound := List.find?_eq_none.1 (Option.map_eq_none_iff.1 hcode) l hl
    exact exists_labelAt_of_lookup (by simpa using hfound)

/-- What is linked is accepted. -/
theorem assemble_of_linked {sections : Array CodeSection} (h : Linked sections) (constants : Array Value)
    (functions : Array ScriptFunction) (classes : List (String × List Nat)) :
    ∃ p, Program.assemble sections constants functions classes = .ok p := by
  have hkeys : (siteTable sections).map Prod.fst =
      sections.toList.flatMap fun s => labelsIn (opsOf s.code.toList) := by
    simp only [siteTable, List.map_flatMap, map_labelSites]
    exact flatMap_zipIdx (fun s : CodeSection => labelsIn (opsOf s.code.toList)) _ _
  refine assemble_accepts _ _ _ ?_ (hkeys ▸ nodup_keys_iff.2 h.once) fun s hs l hl => ?_
  · simpa [Array.isEmpty, Nat.pos_iff_ne_zero] using h.script
  · obtain ⟨op, hop, hl⟩ := List.mem_flatMap.1 hl
    obtain ⟨i, hi, rfl⟩ := List.mem_map.1 hop
    obtain ⟨x, hx⟩ := List.mem_iff_getElem?.1 hs
    rw [Array.getElem?_toList] at hx
    obtain ⟨pc, s', j, hs', hj, hlabel⟩ := h.own hx (Array.mem_toList_iff.1 hi) hl
    obtain rfl : s = s' := Option.some.inj (hx.symm.trans hs')
    exact List.mem_filterMap.2 ⟨_, List.mem_map_of_mem (Array.mem_toList_iff.2 (Array.mem_of_getElem? hj)),
      by rw [hlabel]; rfl⟩

/-- **The assembler accepts exactly the sections that are linked.** -/
theorem assemble_ok_iff (sections : Array CodeSection) (constants : Array Value)
    (functions : Array ScriptFunction) (classes : List (String × List Nat)) :
    (∃ p, Program.assemble sections constants functions classes = .ok p) ↔ Linked sections :=
  ⟨fun ⟨_, h⟩ => linked_of_assemble h, fun h => assemble_of_linked h _ _ _⟩

/-! ### Programs that were accepted -/

/-- A program as the assembler makes it. -/
def Program.Assembled (p : Program) : Prop :=
  Program.assemble p.sections p.constants p.functions p.classes = .ok p

theorem Program.assembled_of_assemble {sections : Array CodeSection} {constants : Array Value}
    {functions : Array ScriptFunction} {classes : List (String × List Nat)} {p : Program}
    (h : Program.assemble sections constants functions classes = .ok p) : p.Assembled := by
  obtain ⟨-, -, -, rfl⟩ := assemble_eq_ok h
  exact h

/-- A label is defined by the instruction at a place of a program. -/
theorem Program.labelAt_iff {p : Program} {l x pc : Nat} :
    LabelAt p.sections l x pc ↔ ∃ i, p.instruction? x pc = some i ∧ i.op = .label l := by
  simp only [LabelAt, Program.instruction?, Option.bind_eq_some_iff]
  constructor
  · rintro ⟨s, i, hs, hi, hop⟩
    exact ⟨i, ⟨s, hs, hi⟩, hop⟩
  · rintro ⟨i, ⟨s, hs, hi⟩, hop⟩
    exact ⟨s, i, hs, hi, hop⟩

/-- The labels that an instruction names are found in its section. -/
theorem Program.Assembled.resolves {p : Program} (h : p.Assembled) {x pc l : Nat} {i : Instruction}
    (hi : p.instruction? x pc = some i) (hl : l ∈ i.op.targets) :
    ∃ target, p.jumpTarget? l = some target ∧ LabelAt p.sections l x target := by
  obtain ⟨s, hs, hpc⟩ := Option.bind_eq_some_iff.1 hi
  obtain ⟨target, htarget⟩ := (linked_of_assemble h).own hs (Array.mem_of_getElem? hpc) hl
  obtain ⟨j, hj, hop⟩ := Program.labelAt_iff.1 htarget
  exact ⟨target, (assemble_ok h).2.2.2 x target j l hj hop, htarget⟩

end ScriptMachine
