import ScriptMachine.Proofs.Machine.Chronicle
import ScriptMachine.Proofs.Value.Keeping

/-!
# Receiver — the code of a script does not ask the fields for their object

The fields of an object know it as `this` only while something keeps it. A call of a method has `this` in a scope of its
own, which lies before the fields (`Census.bound`), and outside of such calls no fields lie around the code of a script.
So whatever a host keeps or drops, a name that compiled code looks up is what `Heap.resolve?` gives (`Script.names_kept`).
-/

namespace ScriptMachine

namespace Heap

variable {host : Host} {h : Heap} {e s : ScopeId} {inner outer : List ScopeId}

theorem seen?_of_plain (hs : (h.scope s).owner = none) (name : String) : h.seen? host s name = h.getLocal? s name :=
  seen?_of_kept fun o ho => by rw [hs] at ho; cases ho

/-- Scopes that hold no fields are searched without asking for what is kept. -/
theorem findSome?_seen?_of_plain {scopes : List ScopeId} (hplain : ∀ t ∈ scopes, (h.scope t).owner = none)
    (name : String) : scopes.findSome? (h.seen? host · name) = scopes.findSome? (h.getLocal? · name) := by
  induction scopes with
  | nil => rfl
  | cons t rest ih =>
    obtain ⟨ht, hrest⟩ := List.forall_mem_cons.1 hplain
    rw [List.findSome?_cons, List.findSome?_cons, seen?_of_plain ht, ih hrest]

/-- Where no fields lie around a scope, no name depends on what is kept. -/
theorem found?_of_plain (hplain : ∀ t ∈ h.chain e, (h.scope t).owner = none) (name : String) :
    h.found? host e name = h.resolve? e name := findSome?_seen?_of_plain hplain name

/-- Nor does any where `this` is defined before the first fields. -/
theorem found?_of_bound (hchain : h.chain e = inner ++ s :: outer) (hinner : ∀ t ∈ inner, (h.scope t).owner = none)
    (hbound : (h.scope s).defines thisName = true) (name : String) : h.found? host e name = h.resolve? e name := by
  by_cases hname : name = thisName
  · subst hname
    obtain ⟨v, hv⟩ := Option.isSome_iff_exists.1 hbound
    have hget : h.getLocal? s thisName = some v := by rw [getLocal?_eq, hv, Option.some_or]
    rw [found?, resolve?, hchain, List.findSome?_append, List.findSome?_append, findSome?_seen?_of_plain hinner,
      List.findSome?_cons, List.findSome?_cons, seen?_of_lookup hv, hget]
  · exact found?_of_ne hname

end Heap

/-- The activation at work looks names up without asking any fields for their object. -/
theorem Census.found?_eq {h : Heap} {globals env : ScopeId} {a : Activation} {others : List Activation} {k : Nat}
    (hc : Census h globals (a :: others)) (hheld : a.Holds h globals k env) (host : Host) (name : String) :
    h.found? host env name = h.resolve? env name := by
  obtain ⟨blocks, hchain, -, hblocks⟩ := hheld.chain
  have hlocal : ∀ t ∈ a.locals, (h.scope t).owner = none := fun t ht =>
    (hc.hidden t (List.mem_append_left _ ht)).2
  have hinner : ∀ t ∈ blocks, (h.scope t).owner = none := fun t ht =>
    hlocal t (List.mem_append_left _ (hblocks ht))
  have hglobals : ∀ t ∈ h.chain globals, (h.scope t).owner = none := by
    rw [Heap.chain_root hc.root]
    exact List.forall_mem_singleton.2 hc.plain
  unfold Activation.outer at hchain
  cases hscope : a.scope with
  | none =>
    rw [hscope] at hchain
    refine Heap.found?_of_plain (fun t ht => ?_) name
    rw [hchain] at ht
    exact (List.mem_append.1 ht).elim (hinner t) (hglobals t)
  | some s =>
    rw [hscope] at hchain
    cases hreceiver : a.receiver with
    | some r => exact Heap.found?_of_bound hchain hinner (hc.bound a List.mem_cons_self r s hreceiver hscope) name
    | none =>
      rw [hreceiver] at hchain
      have hs : (h.scope s).owner = none :=
        hlocal s (List.mem_append_right _ (by rw [hscope]; exact List.mem_singleton_self s))
      refine Heap.found?_of_plain (fun t ht => ?_) name
      rw [hchain] at ht
      rcases List.mem_append.1 ht with ht | ht
      · exact hinner t ht
      · rcases List.mem_cons.1 ht with rfl | ht
        · exact hs
        · exact hglobals t ht

open Machine

variable {script : Script} {p : Program}

/-- **Names mean the same whatever is kept.** Whenever a compiled script executes an instruction, in whatever request, a
name that it looks up is the value that `Heap.resolve?` gives, which takes every object for kept. -/
theorem Script.names_kept (hc : script.compile = .ok p) (hs : script.sparesIndexer = true) :
    ∀ m H, Chronicle p m H → ∀ (request : Request) before v after, request.course m = before ++ v :: after →
      ∀ host name, v.heap.found? host v.env name = v.heap.resolve? v.env name := by
  obtain ⟨T, hT, -⟩ := Script.exists_layout hc hs
  intro m H hm request before v after hcourse host name
  obtain ⟨hosted, hv⟩ := (hm.resting hT).course hcourse
  have hheld := hv.holds
  rw [hv.globals] at hheld
  exact hv.census.found?_eq hheld host name

end ScriptMachine
