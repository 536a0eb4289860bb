import Mathlib.Data.List.Infix
import ScriptMachine.Proofs.Machine.Exec

/-!
# Splitting — texts cut at a separator and joined again

A text is cut at the leftmost occurrences of a separator that do not overlap (`Text.Cut`). What the cut leaves between
them holds no occurrence, there is one piece more than there are occurrences, and the pieces with the separator between
them are the text. So a string that a script splits and joins with the same separator is the string it was
(`Machine.split_joined`).
-/

namespace ScriptMachine

namespace Text

variable {p text rest piece : List Char} {pieces : List (List Char)} {start : Nat} {ks : List Nat}

/-- What is left behind a beginning. -/
theorem dropBeginning?_eq_some_iff : dropBeginning? p text = some rest ↔ text = p ++ rest := by
  induction p generalizing text with
  | nil => simp [dropBeginning?]
  | cons a p ih =>
    cases text with
    | nil => simp [dropBeginning?]
    | cons c text =>
      by_cases hc : a = c
      · simp [dropBeginning?, hc, ih]
      · simp [dropBeginning?, hc, Ne.symm hc]

theorem dropBeginning?_eq_none_iff : dropBeginning? p text = none ↔ ¬ p <+: text := by
  constructor
  · rintro hnone ⟨rest, hrest⟩
    rw [dropBeginning?_eq_some_iff.2 hrest.symm] at hnone
    cases hnone
  · intro hprefix
    cases hdrop : dropBeginning? p text with
    | none => rfl
    | some rest => exact absurd ⟨rest, (dropBeginning?_eq_some_iff.1 hdrop).symm⟩ hprefix

/-! ### Occurrences -/

/-- A text occurs in another at a position. -/
def OccursAt (p text : List Char) (k : Nat) : Prop := p <+: text.drop k

/-- The positions of the leftmost occurrences that do not overlap, from a position on: the first occurrence there is,
and then those from its end on. -/
inductive Occurrences (p text : List Char) : Nat → List Nat → Prop where
  | none {start : Nat} : (∀ k, start ≤ k → ¬ OccursAt p text k) → Occurrences p text start []
  | next {start k : Nat} {ks : List Nat} : start ≤ k → OccursAt p text k →
      (∀ j, start ≤ j → j < k → ¬ OccursAt p text j) → Occurrences p text (k + p.length) ks →
      Occurrences p text start (k :: ks)

/-- There is one way to list them. -/
theorem Occurrences.unique {ks' : List Nat} (h : Occurrences p text start ks) (h' : Occurrences p text start ks') :
    ks = ks' := by
  induction h generalizing ks' with
  | none hnone =>
    cases h' with
    | none => rfl
    | next hk hoccurs => exact absurd hoccurs (hnone _ hk)
  | @next start k ks hk hoccurs hfirst _ ih =>
    cases h' with
    | none hnone => exact absurd hoccurs (hnone _ hk)
    | @next _ k' ks' hk' hoccurs' hfirst' hks' =>
      obtain rfl : k = k' := by
        rcases Nat.lt_trichotomy k k' with hlt | heq | hgt
        · exact absurd hoccurs (hfirst' k hk hlt)
        · exact heq
        · exact absurd hoccurs' (hfirst k' hk' hgt)
      rw [ih hks']

/-! ### Cuts -/

/-- A text cut at the leftmost occurrences of a separator: the last piece has none, and every other is what stands in
front of the first one. -/
inductive Cut (p : List Char) : List Char → List (List Char) → Prop where
  | last {text : List Char} : ¬ p <:+: text → Cut p text [text]
  | piece {piece rest : List Char} {pieces : List (List Char)} :
      (∀ j < piece.length, ¬ OccursAt p (piece ++ p ++ rest) j) → Cut p rest pieces →
      Cut p (piece ++ p ++ rest) (piece :: pieces)

theorem Cut.ne_nil (h : Cut p text pieces) : pieces ≠ [] := by
  cases h <;> exact nofun

/-- The pieces, with the separator between them, are the text. -/
theorem Cut.intercalate (h : Cut p text pieces) : p.intercalate pieces = text := by
  induction h with
  | last => exact List.intercalate_singleton
  | piece _ hrest ih => rw [List.intercalate_cons_of_ne_nil hrest.ne_nil, ih]

/-- No piece holds the separator: an occurrence inside would begin before the first one. -/
theorem Cut.not_infix (h : Cut p text pieces) (hp : p ≠ []) : ∀ piece ∈ pieces, ¬ p <:+: piece := by
  induction h with
  | last hnone =>
    intro piece hpiece
    rw [List.mem_singleton.1 hpiece]
    exact hnone
  | @piece first rest pieces hfirst _ ih =>
    intro piece hpiece
    rcases List.mem_cons.1 hpiece with rfl | hpiece
    · rintro ⟨a, b, hab⟩
      have hlength := congrArg List.length hab
      simp only [List.length_append] at hlength
      have hpos := List.length_pos_iff.2 hp
      refine hfirst a.length (by omega) ⟨b ++ p ++ rest, ?_⟩
      rw [← hab]
      simp [List.append_assoc]
    · exact ih piece hpiece

/-- The cuts are at the leftmost occurrences. -/
theorem Cut.occurrences {t : List Char} (h : Cut p t pieces) (htext : text.drop start = t) :
    ∃ ks, Occurrences p text start ks ∧ pieces.length = ks.length + 1 := by
  induction h generalizing start with
  | last hnone =>
    refine ⟨[], .none fun k hk hoccurs => hnone ?_, rfl⟩
    have hsuffix : text.drop k <:+ text.drop start := List.drop_suffix_drop_left text hk
    exact htext ▸ (List.IsPrefix.isInfix hoccurs).trans hsuffix.isInfix
  | @piece piece rest pieces hfirst _ ih =>
    have hdrop : ∀ j, text.drop (start + j) = (piece ++ p ++ rest).drop j := fun j => by
      rw [← htext, List.drop_drop]
    have hend : text.drop (start + piece.length + p.length) = rest := by
      rw [Nat.add_assoc, hdrop, ← List.length_append, List.drop_left]
    obtain ⟨ks, hks, hlength⟩ := ih hend
    refine ⟨(start + piece.length) :: ks, .next (Nat.le_add_right _ _) ?_ (fun j hj hlt hoccurs => ?_) hks, ?_⟩
    · rw [OccursAt, hdrop, List.append_assoc, List.drop_left]
      exact List.prefix_append p rest
    · have hat := hdrop (j - start)
      rw [Nat.add_sub_cancel' hj] at hat
      refine hfirst (j - start) (by omega) ?_
      rwa [OccursAt, ← hat]
    · rw [List.length_cons, List.length_cons, hlength]

/-! ### The pieces of a text -/

/-- Scanning goes on with the piece under way, in which no occurrence begins. -/
theorem cut_piecesFrom (a : Char) (as : List Char) (current text : List Char)
    (hcurrent : ∀ j < current.length, ¬ OccursAt (a :: as) (current.reverse ++ text) j) :
    Cut (a :: as) (current.reverse ++ text) (piecesFrom a as current text) := by
  fun_induction piecesFrom a as current text with
  | case1 current =>
    rw [List.append_nil] at hcurrent ⊢
    refine .last ?_
    rintro ⟨x, y, hxy⟩
    have hlength := congrArg List.length hxy
    simp only [List.length_append, List.length_cons, List.length_reverse] at hlength
    refine hcurrent x.length (by omega) ⟨y, ?_⟩
    rw [← hxy, List.append_assoc, List.drop_left]
  | case2 current c cs rest h _ ih =>
    rw [dropBeginning?_eq_some_iff.1 h, ← List.append_assoc] at hcurrent ⊢
    refine .piece (fun j hj => hcurrent j (List.length_reverse ▸ hj)) ?_
    simpa using ih nofun
  | case3 current c cs h ih =>
    rw [List.reverse_cons, List.append_assoc] at ih
    refine ih fun j hj => ?_
    rcases Nat.lt_or_ge j current.length with hlt | hge
    · exact hcurrent j hlt
    · have hj : j = current.reverse.length := by
        rw [List.length_reverse]
        exact Nat.le_antisymm (Nat.lt_succ_iff.1 hj) hge
      rw [OccursAt, hj, List.drop_left]
      exact dropBeginning?_eq_none_iff.1 h

/-- The pieces between the occurrences of a separator are the cut of the text. -/
theorem cut_pieces (hp : p ≠ []) (text : List Char) : Cut p text (Text.pieces p text) := by
  cases p with
  | nil => exact absurd rfl hp
  | cons a as => exact cut_piecesFrom a as [] text nofun

/-- Nothing between single characters gives the text back. -/
theorem intercalate_chars (text : List Char) : [].intercalate (text.map fun c => [c]) = text := by
  induction text with
  | nil => rfl
  | cons c text ih =>
    cases text with
    | nil => rfl
    | cons d text =>
      rw [List.map_cons, List.intercalate_cons_of_ne_nil (by simp), ih]
      rfl

theorem intercalate_pieces (p text : List Char) : p.intercalate (Text.pieces p text) = text := by
  cases p with
  | nil => exact intercalate_chars text
  | cons a as => exact (cut_pieces (List.cons_ne_nil a as) text).intercalate

/-- Texts split at a separator and joined with it. -/
theorem intercalate_split (p text : String) : p.intercalate (split p text) = text := by
  rw [← String.toList_inj, String.toList_intercalate, split, List.map_map]
  have hpieces : (Text.pieces p.toList text.toList).map (String.toList ∘ String.ofList) =
      Text.pieces p.toList text.toList := by
    simp [Function.comp_def]
  rw [hpieces, intercalate_pieces]

end Text

/-! ### Joined arrays -/

/-- An array of strings is joined to the strings with the separator between them. -/
theorem Heap.join_strings {h : Heap} {a : ArrayId} {texts : List String} (ha : a.index < h.arrays.size)
    (helements : (h.elements a).toList = texts.map Value.string) (separator : String) :
    h.join separator a = separator.intercalate texts := by
  have hitems : h.arrays[a.index] = h.elements a := by
    rw [elements, Array.getD_eq_getD_getElem?, Array.getElem?_eq_getElem ha, Option.getD_some]
  rw [join, joinFrom, dif_neg (by simp), dif_pos ha, hitems, helements, List.map_map]
  refine congrArg (separator.intercalate ·) ?_
  exact (List.map_congr_left fun _ _ => rfl).trans (List.map_id _)

namespace Machine

/-- What the code of a method call does behind its arguments and its receiver. -/
def callMethod (name : String) (argc : Nat) : Exec Unit := do
  let _ ← dispatch { op := .dup }
  let _ ← dispatch { op := .fetchProperty name }
  let _ ← dispatch { op := .call argc true }

variable {m : Machine} {s : List Entry} {target v : Value} {name : String} {b : Builtin} {h : Heap}

/-- A method of an array or a string is called with its receiver. -/
theorem callMethod_builtin (args : List Value) (hname : name ≠ indexer)
    (hmethod : m.property target (.string name) = .ok (.native b.handle)) (hargs : b.arity.accepts args.length = true)
    (hbody : b.body (some target) args m.heap = { result := .ok v, heap := h }) :
    callMethod name args.length (m.onStack (.value target :: pushed args s)) =
      .ok () ({ m with heap := h }.onStack (.value v :: s)) := by
  have hcall : b.native.call (some target) args m.heap = { result := .ok v, heap := h } :=
    (if_pos hargs).trans hbody
  have hnative : callNative b.handle (some target) args m = (.ok v, { m with heap := h }) := by
    have hfind : m.hosts.find b.handle = b.native := rfl
    simp only [callNative, onHeap_eq, hfind, hcall]
    exact Prod.ext rfl (congrArg (fun log => { m with heap := h, log }) (by simp))
  have hcalled : m.called s (.native b.handle) (some target) args =
      .ok none ({ m with heap := h }.onStack (.value v :: s)) := by
    rw [called, if_pos (show b.handle.callable = true from rfl), hnative]
    rfl
  rw [callMethod, exec_bind_ok (dispatch_dup rfl),
    exec_bind_ok ((dispatch_fetchProperty rfl hname).trans (congrArg (give m _) hmethod)),
    exec_bind_ok ((dispatch_callMethod rfl).trans hcalled)]
  rfl

theorem property_split (m : Machine) (text : String) :
    m.property (.string text) (.string "split") = .ok (.native Builtin.stringSplit.handle) := by
  have hkey : (Value.string "split").readPosition? = none := by decide
  have hmethod : Builtin.method Builtin.stringMethods "split" = .native Builtin.stringSplit.handle := by rfl
  simp only [property, positional, hkey]
  rw [if_neg (by decide), hmethod]

theorem property_join (m : Machine) (a : ArrayId) :
    m.property (.array a) (.string "join") = .ok (.native Builtin.arrayJoin.handle) := by
  have hkey : (Value.string "join").readPosition? = none := by decide
  have hmethod : Builtin.method Builtin.arrayMethods "join" = .native Builtin.arrayJoin.handle := by rfl
  simp only [property, positional, hkey]
  rw [if_neg (by decide), hmethod]

/-- The array that a string is split into. -/
theorem callMethod_split (m : Machine) (s : List Entry) (text p : String) :
    callMethod "split" 1 (m.onStack (.value (.string text) :: pushed [.string p] s)) =
      .ok () ({ m with heap := (m.heap.newArray ((Text.split p text).map Value.string).toArray).2 }.onStack
        (.value (.array (m.heap.newArray ((Text.split p text).map Value.string).toArray).1) :: s)) :=
  callMethod_builtin [.string p] (by decide) (property_split m text) rfl rfl

/-- The string that an array of strings is joined to. -/
theorem callMethod_join (m : Machine) (s : List Entry) (a : ArrayId) (p : String) :
    callMethod "join" 1 (m.onStack (.value (.array a) :: pushed [.string p] s)) =
      .ok () (m.onStack (.value (.string (m.heap.join p a)) :: s)) :=
  callMethod_builtin [.string p] (h := m.heap) (by decide) (property_join m a) rfl rfl

/-- **Splitting and joining are inverse.** For every machine, string and separator: the code of `split` gives an array
of strings, and the code of `join` with the same separator gives the string back. Without a separator the array holds
the single characters. Otherwise no element holds the separator, and there is one element more than there are leftmost
occurrences that do not overlap. -/
theorem split_joined (m : Machine) (s : List Entry) (text p : String) :
    ∃ (a : ArrayId) (h : Heap) (pieces : List String),
      callMethod "split" 1 (m.onStack (.value (.string text) :: pushed [.string p] s)) =
        .ok () ({ m with heap := h }.onStack (.value (.array a) :: s)) ∧
      (h.elements a).toList = pieces.map Value.string ∧
      callMethod "join" 1 ({ m with heap := h }.onStack (.value (.array a) :: pushed [.string p] s)) =
        .ok () ({ m with heap := h }.onStack (.value (.string text) :: s)) ∧
      (p = "" → pieces = text.toList.map Char.toString) ∧
      (p ≠ "" → (∀ piece ∈ pieces, ¬ p.toList <:+: piece.toList) ∧
        ∃ ks, (∀ ks', Text.Occurrences p.toList text.toList 0 ks' ↔ ks' = ks) ∧ pieces.length = ks.length + 1) := by
  have hsplit := callMethod_split m s text p
  generalize hmade : m.heap.newArray ((Text.split p text).map Value.string).toArray = made at hsplit
  obtain ⟨hexists, helements⟩ : made.1.index < made.2.arrays.size ∧
      (made.2.elements made.1).toList = (Text.split p text).map Value.string := by
    subst hmade
    simp [Heap.elements, Heap.newArray, Array.getD_eq_getD_getElem?]
  have hjoin := callMethod_join { m with heap := made.2 } s made.1 p
  rw [Heap.join_strings hexists helements, Text.intercalate_split] at hjoin
  refine ⟨made.1, made.2, Text.split p text, hsplit, helements, hjoin, ?_, fun hp => ?_⟩
  · rintro rfl
    simp only [Text.split, String.toList_empty, Text.pieces, List.map_map]
    rfl
  · have hp' : p.toList ≠ [] := fun hnil => hp (String.toList_inj.1 hnil)
    have hcut := Text.cut_pieces hp' text.toList
    have hstart : text.toList.drop 0 = text.toList := rfl
    obtain ⟨ks, hks, hlength⟩ := hcut.occurrences hstart
    refine ⟨fun piece hpiece => ?_, ks, fun ks' => ⟨fun h => h.unique hks, fun h => h ▸ hks⟩, ?_⟩
    · obtain ⟨chars, hchars, rfl⟩ := List.mem_map.1 hpiece
      rw [String.toList_ofList]
      exact hcut.not_infix hp' chars hchars
    · rw [Text.split, List.length_map, hlength]

end Machine

end ScriptMachine
