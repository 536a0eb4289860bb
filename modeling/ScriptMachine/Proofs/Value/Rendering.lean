import Mathlib.Data.List.Nodup
import Mathlib.Data.Finset.Card
import Mathlib.Logic.Relation
import ScriptMachine.Native.Builtins

/-!
# Rendering — what is shown of an array

Arrays may share elements and may contain themselves, so the elements of the elements of an array need not come to an
end. What is shown of an array is a finite tree, its `View`: going down from the outermost array, an array that is open
already is named and not entered again, and every other array is entered wherever it stands. `Heap.Unfolds` gives the
tree by rules that do not ask for its size. There is exactly one for every array of every heap, each rendering is a
printer of it, and where no array contains itself it is the plain tree of elements (`Heap.rendering_exact`).
-/

namespace ScriptMachine

/-- What is shown of a value: a value that is no array, an array that is open already, or an array with its elements. -/
inductive View where
  | plain (v : Value)
  | again (a : ArrayId)
  | array (a : ArrayId) (items : List View)

namespace View

/-! ### Printers -/

mutual

/-- What a view leaves between two separators. -/
def slot (h : Heap) : View → String
  | .plain .undefined | .plain .null => ""
  | .plain v => h.plainText v
  | .again _ => ""
  | .array _ items => ",".intercalate (slots h items)

/-- What views leave between separators, in order. -/
def slots (h : Heap) : List View → List String
  | [] => []
  | t :: rest => t.slot h :: slots h rest

end

/-- A view with a separator of its own between the outermost elements. -/
def joined (h : Heap) (separator : String) : View → String
  | .array _ items => separator.intercalate (slots h items)
  | t => t.slot h

mutual

/-- A view as a diagnostic shows it. -/
def inspected (h : Heap) : View → String
  | .plain v => h.plainInspect v
  | .again _ => "[...]"
  | .array _ items => "[" ++ ", ".intercalate (inspectedAll h items) ++ "]"

/-- Views as a diagnostic shows them, in order. -/
def inspectedAll (h : Heap) : List View → List String
  | [] => []
  | t :: rest => t.inspected h :: inspectedAll h rest

end

theorem slots_eq (h : Heap) (items : List View) : slots h items = items.map (slot h) := by
  induction items with
  | nil => rfl
  | cons t rest ih => rw [slots, ih, List.map_cons]

theorem inspectedAll_eq (h : Heap) (items : List View) : inspectedAll h items = items.map (inspected h) := by
  induction items with
  | nil => rfl
  | cons t rest ih => rw [inspectedAll, ih, List.map_cons]

/-! ### Places in a view -/

/-- What stands at the top of a view. -/
inductive Head where
  | plain (v : Value)
  | again (a : ArrayId)
  | array (a : ArrayId)

/-- What stands at the top of a view. -/
def head : View → Head
  | .plain v => .plain v
  | .again a => .again a
  | .array a _ => .array a

/-- The view of an element of an element and so on, given by the positions that lead to it. -/
def at? : View → List Nat → Option View
  | t, [] => some t
  | .array _ items, i :: places => items[i]?.bind (·.at? places)
  | _, _ :: _ => none

end View

namespace Heap

/-! ### The elements of the elements -/

/-- The value that positions lead to from a value, with the arrays on the way, the outermost first. -/
def walk? (h : Heap) : Value → List Nat → Option (List ArrayId × Value)
  | v, [] => some ([], v)
  | .array a, i :: places =>
    (h.elements a)[i]?.bind fun v => (h.walk? v places).map fun (trail, w) => (a :: trail, w)
  | _, _ :: _ => none

/-- What is shown of a value below some arrays. -/
def headBelow (trail : List ArrayId) : Value → View.Head
  | .array a => if a ∈ trail then .again a else .array a
  | v => .plain v

/-- What is shown at some positions of a value: nothing behind an array that is entered a second time. -/
def shown? (h : Heap) (v : Value) (places : List Nat) : Option View.Head :=
  (h.walk? v places).bind fun (trail, w) => if trail.Nodup then some (headBelow trail w) else none

/-- The view of a value below open arrays, the innermost first. -/
inductive Unfolds (h : Heap) : List ArrayId → Value → View → Prop where
  | plain {path v} : (∀ a, v ≠ .array a) → Unfolds h path v (.plain v)
  | again {path a} : a ∈ path → Unfolds h path (.array a) (.again a)
  | array {path a items} : a ∉ path → items.length = (h.elements a).size →
      (∀ (i : Nat) v t, (h.elements a)[i]? = some v → items[i]? = some t → Unfolds h (a :: path) v t) →
      Unfolds h path (.array a) (.array a items)

/-- The plain tree of the elements of a value, whatever is open. -/
inductive Spreads (h : Heap) : Value → View → Prop where
  | plain {v} : (∀ a, v ≠ .array a) → Spreads h v (.plain v)
  | array {a items} : items.length = (h.elements a).size →
      (∀ (i : Nat) v t, (h.elements a)[i]? = some v → items[i]? = some t → Spreads h v t) →
      Spreads h (.array a) (.array a items)

/-- An array is an element of another. -/
def Contains (h : Heap) (a b : ArrayId) : Prop := .array b ∈ h.elements a

/-- No array inside an array contains itself, however deep; nor does the array itself. -/
def Acyclic (h : Heap) (a : ArrayId) : Prop :=
  ∀ b, Relation.ReflTransGen h.Contains a b → ¬ Relation.TransGen h.Contains b b

variable {h : Heap} {path : List ArrayId} {v : Value} {t u : View} {a : ArrayId}

theorem lt_size_of_element {i : Nat} (hv : (h.elements a)[i]? = some v) : a.index < h.arrays.size := by
  by_contra hsize
  have hnone : h.arrays[a.index]? = none := Array.getElem?_eq_none (Nat.le_of_not_lt hsize)
  simp [elements, Array.getD_eq_getD_getElem?, hnone] at hv

/-! ### One view for every value -/

/-- Views of elements, put together in order. -/
theorem exists_items {R : Value → View → Prop} (values : List Value) (hall : ∀ v ∈ values, ∃ t, R v t) :
    ∃ items : List View, items.length = values.length ∧
      ∀ (i : Nat) v t, values[i]? = some v → items[i]? = some t → R v t := by
  induction values with
  | nil => exact ⟨[], rfl, fun i v t hv => by simp at hv⟩
  | cons w rest ih =>
    obtain ⟨t, ht⟩ := hall w List.mem_cons_self
    obtain ⟨items, hlen, hitems⟩ := ih fun v hv => hall v (List.mem_cons_of_mem _ hv)
    refine ⟨t :: items, congrArg (· + 1) hlen, fun i v u hv hu => ?_⟩
    cases i with
    | zero =>
      cases hv
      cases hu
      exact ht
    | succ i => exact hitems i v u (by simpa using hv) (by simpa using hu)

/-- **Every value has a view**: each array that is entered is one less to enter. -/
theorem exists_unfolds (h : Heap) (path : List ArrayId) (v : Value) : ∃ t, h.Unfolds path v t := by
  generalize hn : (h.unopened path).length = n
  induction n using Nat.strongRecOn generalizing path v with
  | ind n ih =>
    cases v with
    | array a =>
      by_cases hpath : a ∈ path
      · exact ⟨_, .again hpath⟩
      · have hinner : ∀ v ∈ (h.elements a).toList, ∃ t, h.Unfolds (a :: path) v t := by
          intro v hv
          obtain ⟨i, hi⟩ := List.mem_iff_getElem?.1 hv
          have hsize : a.index < h.arrays.size := lt_size_of_element (i := i) (v := v) (by simpa using hi)
          have hlt := h.unopened_cons_lt (by simpa using hpath) hsize
          exact ih _ (hn ▸ hlt) (a :: path) v rfl
        obtain ⟨items, hlen, hitems⟩ := exists_items _ hinner
        refine ⟨_, .array hpath (by simpa using hlen) fun i v t hv ht => ?_⟩
        exact hitems i v t (by simpa using hv) ht
    | _ => exact ⟨_, .plain nofun⟩

/-- Views with the same elements at the same positions. -/
theorem items_eq {R S : Value → View → Prop} {values : Array Value} {items others : List View}
    (hitems : items.length = values.size) (hothers : others.length = values.size)
    (hR : ∀ (i : Nat) v t, values[i]? = some v → items[i]? = some t → R v t)
    (hS : ∀ (i : Nat) v t, values[i]? = some v → others[i]? = some t → S v t)
    (heq : ∀ (i : Nat) v t u, values[i]? = some v → items[i]? = some t → R v t → S v u → t = u) : items = others := by
  apply List.ext_getElem (hitems.trans hothers.symm)
  intro i hi hi'
  have hv : values[i]? = some values[i] := Array.getElem?_eq_getElem (hitems ▸ hi)
  have ht : items[i]? = some items[i] := List.getElem?_eq_getElem hi
  have hu : others[i]? = some others[i] := List.getElem?_eq_getElem hi'
  exact heq i _ _ _ hv ht (hR i _ _ hv ht) (hS i _ _ hv hu)

theorem Unfolds.unique (ht : h.Unfolds path v t) (hu : h.Unfolds path v u) : t = u := by
  induction ht generalizing u with
  | plain hv =>
    cases hu with
    | plain => rfl
    | again | array => exact absurd rfl (hv _)
  | again hpath =>
    cases hu with
    | plain hv => exact absurd rfl (hv _)
    | again => rfl
    | array hpath' => exact absurd hpath hpath'
  | array hpath hlen hitems ih =>
    cases hu with
    | plain hv => exact absurd rfl (hv _)
    | again hpath' => exact absurd hpath' hpath
    | array _ hlen' hitems' =>
      exact congrArg _ (items_eq hlen hlen' hitems hitems' fun i v t u hv ht _ hu => ih i v t hv ht hu)

/-! ### What stands where -/

/-- The arrays on the way are in range, since each of them has an element. -/
theorem walk?_lt {places : List Nat} {trail : List ArrayId} {w : Value} (hw : h.walk? v places = some (trail, w)) :
    trail.length = places.length ∧ ∀ b ∈ trail, b.index < h.arrays.size := by
  induction places generalizing v trail with
  | nil =>
    cases hw
    exact ⟨rfl, nofun⟩
  | cons i places ih =>
    cases v with
    | array a =>
      obtain ⟨x, hx, hw⟩ := Option.bind_eq_some_iff.1 hw
      obtain ⟨⟨rest, w'⟩, hrest, heq⟩ := Option.map_eq_some_iff.1 hw
      cases heq
      obtain ⟨hlen, hlt⟩ := ih hrest
      refine ⟨congrArg (· + 1) hlen, fun b hb => ?_⟩
      rcases List.mem_cons.1 hb with rfl | hb
      · exact lt_size_of_element hx
      · exact hlt b hb
    | _ => cases hw

/-- The induction goes down the positions. An array that is open hides everything behind it, and an array that is
entered is open from then on. -/
theorem Unfolds.at?_head (ht : h.Unfolds path v t) (places : List Nat) :
    (t.at? places).map View.head = (h.walk? v places).bind fun (trail, w) =>
      if trail.Nodup ∧ ∀ b ∈ trail, b ∉ path then some (headBelow (trail ++ path) w) else none := by
  induction places generalizing path v t with
  | nil =>
    cases ht with
    | plain hv =>
      cases v with
      | array a => exact absurd rfl (hv a)
      | _ => simp [View.at?, walk?, View.head, headBelow]
    | again hpath => simp [View.at?, walk?, View.head, headBelow, hpath]
    | array hpath => simp [View.at?, walk?, View.head, headBelow, hpath]
  | cons i places ih =>
    cases ht with
    | plain hv =>
      cases v with
      | array a => exact absurd rfl (hv a)
      | _ => rfl
    | @again _ a hpath =>
      -- whatever lies behind the array has the array on its trail, and the array is open
      have hnone : ∀ x : Value, ((h.walk? x places).map fun p => (a :: p.1, p.2)).bind (fun p =>
          if p.1.Nodup ∧ ∀ b ∈ p.1, b ∉ path then some (headBelow (p.1 ++ path) p.2) else none) = none := by
        intro x
        cases h.walk? x places with
        | none => rfl
        | some p => simp [hpath]
      simp only [View.at?, walk?, Option.map_none]
      cases (h.elements a)[i]? with
      | none => rfl
      | some x => exact (hnone x).symm
    | @array _ a items hpath hlen hitems =>
      simp only [View.at?, walk?]
      cases hx : (h.elements a)[i]? with
      | none =>
        have hi : items[i]? = none := by
          rw [List.getElem?_eq_none_iff, hlen]
          exact Array.getElem?_eq_none_iff.1 hx
        rw [hi]
        rfl
      | some x =>
        have hi : i < items.length := by
          rw [hlen]
          exact (Array.getElem?_eq_some_iff.1 hx).1
        have ht := List.getElem?_eq_getElem hi
        rw [ht, Option.bind_some, Option.bind_some, ih (hitems i x _ hx ht)]
        cases h.walk? x places with
        | none => rfl
        | some p =>
          obtain ⟨trail, w⟩ := p
          have hiff : (trail.Nodup ∧ ∀ b ∈ trail, b ∉ a :: path) ↔
              ((a :: trail).Nodup ∧ ∀ b ∈ a :: trail, b ∉ path) := by
            rw [List.nodup_cons, List.forall_mem_cons]
            constructor
            · rintro ⟨hnodup, hout⟩
              exact ⟨⟨fun ha => hout a ha List.mem_cons_self, hnodup⟩, hpath,
                fun b hb hmem => hout b hb (List.mem_cons_of_mem _ hmem)⟩
            · rintro ⟨⟨ha, hnodup⟩, -, hout⟩
              refine ⟨hnodup, fun b hb hmem => ?_⟩
              rcases List.mem_cons.1 hmem with rfl | hmem
              · exact ha hb
              · exact hout b hb hmem
          have hhead : headBelow (trail ++ a :: path) w = headBelow (a :: trail ++ path) w := by
            cases w with
            | array b =>
              have hmem : b ∈ trail ++ a :: path ↔ b ∈ a :: trail ++ path := by
                simp only [List.mem_append, List.mem_cons]
                tauto
              simp only [headBelow, hmem]
            | _ => rfl
          simp only [Option.bind_some, Option.map_some, hiff, hhead]

/-- No way into a view is longer than there are arrays. -/
theorem length_le_of_shown {places : List Nat} (hs : h.shown? v places ≠ none) : places.length ≤ h.arrays.size := by
  cases hw : h.walk? v places with
  | none => simp [shown?, hw] at hs
  | some p =>
    obtain ⟨trail, w⟩ := p
    obtain ⟨hlen, hlt⟩ := walk?_lt hw
    have hnodup : trail.Nodup := by
      by_contra hdup
      simp [shown?, hw, hdup] at hs
    have hindices : (trail.map ArrayId.index).Nodup := by
      refine hnodup.map fun b c hbc => ?_
      cases b
      cases c
      exact congrArg ArrayId.mk hbc
    have hsub : trail.map ArrayId.index ⊆ List.range h.arrays.size := by
      intro i hi
      obtain ⟨b, hb, rfl⟩ := List.mem_map.1 hi
      exact List.mem_range.2 (hlt b hb)
    calc places.length = (trail.map ArrayId.index).length := by rw [List.length_map, hlen]
      _ ≤ (List.range h.arrays.size).length := (List.subperm_of_subset hindices hsub).length_le
      _ = h.arrays.size := List.length_range

/-! ### Texts -/

/-- What an element leaves between separators when some arrays are open. -/
def slotText (h : Heap) (path : List ArrayId) : Value → String
  | .undefined | .null => ""
  | .array inner => h.joinFrom path "," inner
  | v => h.plainText v

theorem joinFrom_eq (h : Heap) (path : List ArrayId) (separator : String) (a : ArrayId) :
    h.joinFrom path separator a = if a ∈ path then "" else
      separator.intercalate ((h.elements a).toList.map (h.slotText (a :: path))) := by
  rw [joinFrom]
  by_cases hpath : a ∈ path
  · rw [dif_pos (by simpa using hpath), if_pos hpath]
  · rw [dif_neg (by simpa using hpath), if_neg hpath]
    by_cases hsize : a.index < h.arrays.size
    · have helements : h.elements a = h.arrays[a.index] := by simp [elements, Array.getD_eq_getD_getElem?, hsize]
      rw [dif_pos hsize, helements]
      refine congrArg (separator.intercalate ·) (List.map_congr_left fun v _ => ?_)
      cases v <;> rfl
    · have helements : h.elements a = #[] := by simp [elements, Array.getD_eq_getD_getElem?, hsize]
      rw [dif_neg hsize, helements]
      rfl

/-- What an element is in a diagnostic when some arrays are open. -/
def inspectElement (h : Heap) (path : List ArrayId) : Value → String
  | .array inner => h.inspectFrom path inner
  | v => h.plainInspect v

theorem inspectFrom_eq (h : Heap) (path : List ArrayId) (a : ArrayId) :
    h.inspectFrom path a = if a ∈ path then "[...]" else
      "[" ++ ", ".intercalate ((h.elements a).toList.map (h.inspectElement (a :: path))) ++ "]" := by
  rw [inspectFrom]
  by_cases hpath : a ∈ path
  · rw [dif_pos (by simpa using hpath), if_pos hpath]
  · rw [dif_neg (by simpa using hpath), if_neg hpath]
    by_cases hsize : a.index < h.arrays.size
    · have helements : h.elements a = h.arrays[a.index] := by simp [elements, Array.getD_eq_getD_getElem?, hsize]
      rw [dif_pos hsize, helements]
      refine congrArg (fun items => "[" ++ ", ".intercalate items ++ "]") (List.map_congr_left fun v _ => ?_)
      cases v <;> rfl
    · have helements : h.elements a = #[] := by simp [elements, Array.getD_eq_getD_getElem?, hsize]
      rw [dif_neg hsize, helements]
      rfl

/-- Elements printed one by one. -/
theorem map_elements_eq {f : Value → String} {g : View → String} {values : Array Value} {items : List View}
    (hlen : items.length = values.size) (hfg : ∀ (i : Nat) v t, values[i]? = some v → items[i]? = some t → f v = g t) :
    values.toList.map f = items.map g := by
  apply List.ext_getElem (by simp [hlen])
  intro i hi hi'
  rw [List.getElem_map, List.getElem_map]
  rw [List.length_map] at hi hi'
  exact hfg i _ _ (by simp [Array.getElem?_eq_getElem (hlen ▸ hi')]) (List.getElem?_eq_getElem hi')

/-- The induction is over the rules, so the separator may change on the way down. -/
theorem Unfolds.slotText_eq (ht : h.Unfolds path v t) : h.slotText path v = t.slot h := by
  induction ht with
  | @plain path v hv =>
    cases v with
    | array a => exact absurd rfl (hv a)
    | _ => simp [slotText, View.slot]
  | again hpath => rw [slotText, joinFrom_eq, if_pos hpath, View.slot]
  | @array path a items hpath hlen hitems ih =>
    rw [slotText, joinFrom_eq, if_neg hpath, View.slot, View.slots_eq, map_elements_eq hlen ih]

theorem Unfolds.joinFrom_eq_joined (ht : h.Unfolds path (.array a) t) (separator : String) :
    h.joinFrom path separator a = t.joined h separator := by
  rw [joinFrom_eq]
  cases ht with
  | plain hv => exact absurd rfl (hv a)
  | again hpath => rw [if_pos hpath, View.joined, View.slot]; nofun
  | array hpath hlen hitems =>
    rw [if_neg hpath, View.joined, View.slots_eq]
    exact congrArg _ (map_elements_eq hlen fun i v t hv ht => (hitems i v t hv ht).slotText_eq)

theorem Unfolds.inspectElement_eq (ht : h.Unfolds path v t) : h.inspectElement path v = t.inspected h := by
  induction ht with
  | @plain path v hv =>
    cases v with
    | array a => exact absurd rfl (hv a)
    | _ => simp [inspectElement, View.inspected]
  | again hpath => rw [inspectElement, inspectFrom_eq, if_pos hpath, View.inspected]
  | @array path a items hpath hlen hitems ih =>
    rw [inspectElement, inspectFrom_eq, if_neg hpath, View.inspected, View.inspectedAll_eq, map_elements_eq hlen ih]

/-! ### Arrays that contain themselves -/

/-- The plain tree is the view, if every open array contains the value and no array contains itself. -/
theorem Spreads.unfolds (ht : h.Spreads v t)
    (hpath : ∀ b ∈ path, ∀ c, v = .array c → Relation.TransGen h.Contains b c)
    (hacyclic : ∀ c, v = .array c → h.Acyclic c) : h.Unfolds path v t := by
  induction ht generalizing path with
  | plain hv => exact .plain hv
  | @array a items hlen hitems ih =>
    have hself : ¬ Relation.TransGen h.Contains a a := hacyclic a rfl a .refl
    refine .array (fun ha => hself (hpath a ha a rfl)) hlen fun i v t hv ht => ih i v t hv ht ?_ ?_
    · rintro b hb c rfl
      have hstep : h.Contains a c := Array.mem_of_getElem? hv
      rcases List.mem_cons.1 hb with rfl | hb
      · exact .single hstep
      · exact (hpath b hb a rfl).tail hstep
    · rintro c rfl b hb
      exact hacyclic a rfl b (.head (Array.mem_of_getElem? hv) hb)

/-- A finite tree of elements leaves no room for an array that contains itself. -/
theorem Spreads.acyclic (ht : h.Spreads v t) : ∀ a, v = .array a → h.Acyclic a := by
  induction ht with
  | plain hv => exact fun a ha => absurd ha (hv a)
  | @array a items hlen hitems ih =>
    -- what an array contains is acyclic, so an array that contains itself would be an element of an acyclic one
    have hinner : ∀ c, h.Contains a c → h.Acyclic c := by
      intro c hc
      obtain ⟨i, hi⟩ := Array.mem_iff_getElem?.1 hc
      have hlt : i < items.length := by
        rw [hlen]
        exact (Array.getElem?_eq_some_iff.1 hi).1
      exact ih i _ _ hi (List.getElem?_eq_getElem hlt) c rfl
    rintro a' ha b hb hcycle
    cases ha
    rcases Relation.ReflTransGen.cases_head hb with rfl | ⟨c, hc, hcb⟩
    · obtain ⟨c, hc, hca⟩ := Relation.TransGen.head'_iff.1 hcycle
      exact hinner c hc c .refl (.tail' hca hc)
    · exact hinner c hc b hcb hcycle

/-- Where no array contains itself, the view has no array that is open already. -/
theorem Unfolds.spreads (ht : h.Unfolds path v t)
    (hpath : ∀ b ∈ path, ∀ c, v = .array c → Relation.TransGen h.Contains b c)
    (hacyclic : ∀ c, v = .array c → h.Acyclic c) : h.Spreads v t := by
  induction ht with
  | plain hv => exact .plain hv
  | again ha => exact absurd (hpath _ ha _ rfl) (hacyclic _ rfl _ .refl)
  | @array path a items ha hlen hitems ih =>
    refine .array hlen fun i v t hv ht => ih i v t hv ht ?_ ?_
    · rintro b hb c rfl
      have hstep : h.Contains a c := Array.mem_of_getElem? hv
      rcases List.mem_cons.1 hb with rfl | hb
      · exact .single hstep
      · exact (hpath b hb a rfl).tail hstep
    · rintro c rfl b hb
      exact hacyclic a rfl b (.head (Array.mem_of_getElem? hv) hb)

theorem Unfolds.spreads_iff (ht : h.Unfolds [] (.array a) t) :
    h.Spreads (.array a) u ↔ h.Acyclic a ∧ u = t := by
  have hnone : ∀ b ∈ ([] : List ArrayId), ∀ c, Value.array a = .array c → Relation.TransGen h.Contains b c := nofun
  constructor
  · intro hu
    have hacyclic := hu.acyclic
    exact ⟨hacyclic a rfl, (hu.unfolds hnone hacyclic).unique ht⟩
  · rintro ⟨hacyclic, rfl⟩
    exact ht.spreads hnone fun c hc => by cases hc; exact hacyclic

/-- **Renderings of arrays are total and exact.** Every array of every heap has exactly one view, which is finite: no
way into it is longer than there are arrays. The view shows what positions lead to from the array as long as no array
on the way is entered twice; an array that is on the way already is only named there, and any other is entered, however
often it stands elsewhere. The joined texts, the text in a script and the inspected form are that view, printed. The
plain tree of elements exists exactly if no array inside contains itself, and it is the view then. -/
theorem rendering_exact (h : Heap) (a : ArrayId) :
    ∃ t : View, (∀ u, h.Unfolds [] (.array a) u ↔ u = t) ∧
      (∀ places, (t.at? places).map View.head = h.shown? (.array a) places) ∧
      (∀ places, t.at? places ≠ none → places.length ≤ h.arrays.size) ∧
      (∀ separator, h.join separator a = t.joined h separator) ∧
      (∀ separator, ((Builtin.arrayJoin.body (some (.array a)) [.string separator] h).result =
        .ok (.string (t.joined h separator)))) ∧
      (Value.array a).text h = t.joined h "," ∧ (Value.array a).inspect h = t.inspected h ∧
      ∀ u, h.Spreads (.array a) u ↔ h.Acyclic a ∧ u = t := by
  obtain ⟨t, ht⟩ := exists_unfolds h [] (.array a)
  have hheads : ∀ places, (t.at? places).map View.head = h.shown? (.array a) places := by
    intro places
    simpa [shown?] using ht.at?_head places
  have hjoin : ∀ separator, h.join separator a = t.joined h separator := ht.joinFrom_eq_joined
  refine ⟨t, fun u => ⟨fun hu => hu.unique ht, fun hu => hu ▸ ht⟩, hheads, ?_, hjoin, ?_, hjoin ",",
    ht.inspectElement_eq, fun u => ht.spreads_iff⟩
  · intro places hplaces
    refine length_le_of_shown (v := .array a) fun hnone => hplaces ?_
    rw [← hheads places] at hnone
    exact Option.map_eq_none_iff.1 hnone
  · intro separator
    rw [← hjoin separator]
    rfl

end Heap

end ScriptMachine
