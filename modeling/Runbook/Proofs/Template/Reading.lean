import Runbook.Guard
import Runbook.Proofs.Template.Placeholder

/-!
This module contains what templates and guards read: bindings that give the same values to the
names that a text mentions cannot be told apart by it. A guard is cut into operands before they are
filled in, which brings no name to light that the guard does not mention.
-/

namespace Runbook

/-- Two bindings that give the same values to some names. -/
def Json.Fields.AgreeOn (names : List String) (vars₁ vars₂ : Json.Fields) : Prop :=
  ∀ name ∈ names, vars₁.get? name = vars₂.get? name

variable {vars₁ vars₂ : Json.Fields}

theorem Json.Fields.AgreeOn.mono {names fewer : List String} (h : AgreeOn names vars₁ vars₂)
    (hsub : ∀ name ∈ fewer, name ∈ names)
    : AgreeOn fewer vars₁ vars₂ :=
  fun name hname => h name (hsub name hname)

namespace Template

open Text Json.Fields

theorem mem_foldl_distinct {names seen : List String} {name : String}
    : name ∈ names.foldl (fun seen name => if name ∈ seen then seen else seen ++ [name]) seen
        ↔
      name ∈ seen ∨ name ∈ names := by
  induction names generalizing seen with
  | nil => simp
  | cons first rest ih =>
    rw [List.foldl_cons, ih, List.mem_cons]
    split
    . next hseen =>
      constructor
      . rintro (h | h)
        . exact .inl h
        . exact .inr (.inr h)
      . rintro (h | rfl | h)
        . exact .inl h
        . exact .inl hseen
        . exact .inr h
    . rw [List.mem_append, List.mem_singleton, or_assoc]

theorem mem_distinct {names : List String} {name : String}
    : name ∈ distinct names ↔ name ∈ names := by
  unfold distinct
  rw [mem_foldl_distinct]
  simp

theorem mem_names_iff {text name : String}
    : name ∈ names text
        ↔
      ∃ path source, .found path source ∈ fragments text.toList ∧
        path.head?.map String.ofList = some name := by
  unfold names
  rw [mem_distinct, List.mem_filterMap]
  constructor
  . intro ⟨fragment, hmem, hroot⟩
    cases fragment with
    | char c => cases hroot
    | found path source => exact ⟨path, source, hmem, hroot⟩
  . intro ⟨path, source, hmem, hroot⟩
    exact ⟨.found path source, hmem, hroot⟩

def ReadsAlike (vars₁ vars₂ : Json.Fields) (s : List Char) : Prop :=
  ∀ path source, .found path source ∈ fragments s → lookupPath vars₁ path = lookupPath vars₂ path

theorem readsAlike_of_agreeOn {text : String} (h : AgreeOn (names text) vars₁ vars₂)
    : ReadsAlike vars₁ vars₂ text.toList := by
  intro path source hmem
  cases path with
  | nil => rfl
  | cons root rest =>
    simp only [lookupPath]
    rw [h (String.ofList root) (mem_names_iff.mpr ⟨_, source, hmem, rfl⟩)]

theorem ReadsAlike.part {s part : List Char} (h : ReadsAlike vars₁ vars₂ s) (hpart : part <:+: s)
    : ReadsAlike vars₁ vars₂ part :=
  fun path source hmem => h path source (mem_fragments_of_isInfix hpart hmem)

theorem ReadsAlike.renderChars {s : List Char} (h : ReadsAlike vars₁ vars₂ s)
    (policy : MissingPolicy)
    : renderChars policy vars₁ s = renderChars policy vars₂ s := by
  unfold Template.renderChars
  apply List.flatMap_congr
  intro fragment hmem
  cases fragment with
  | char c => rfl
  | found path source =>
    simp only [renderFragment]
    rw [h path source hmem]

theorem mem_fragments_of_wholePlaceholder? {s : List Char} {path : Path}
    (h : wholePlaceholder? s = some path)
    : .found path s ∈ fragments s :=
  mem_fragments_iff.mpr ⟨wholePlaceholder?_eq_some_iff.mp h, List.infix_rfl⟩

theorem resolveText_congr {text : String} (h : AgreeOn (names text) vars₁ vars₂)
    (policy : MissingPolicy)
    : resolveText policy vars₁ text = resolveText policy vars₂ text := by
  have halike := readsAlike_of_agreeOn h
  unfold resolveText
  split
  . next path hwhole =>
    rw [halike path _ (mem_fragments_of_wholePlaceholder? hwhole)]
  . unfold render
    rw [halike.renderChars]

section Resolve

variable (policy : MissingPolicy)

mutual

theorem resolve_congr (value : Json) (h : AgreeOn (mentions value) vars₁ vars₂)
    : resolve policy vars₁ value = resolve policy vars₂ value := by
  cases value with
  | str text => exact resolveText_congr h policy
  | arr items => exact congrArg Json.arr (resolveItems_congr items h)
  | obj fields => exact congrArg Json.obj (resolveFields_congr fields h)
  | null => rfl
  | bool b => rfl
  | int n => rfl
  | float x => rfl

theorem resolveItems_congr (items : List Json) (h : AgreeOn (itemMentions items) vars₁ vars₂)
    : resolveItems policy vars₁ items = resolveItems policy vars₂ items := by
  cases items with
  | nil => rfl
  | cons value rest =>
    unfold resolveItems
    rw [resolve_congr value (h.mono fun _ => List.mem_append_left _)]
    rw [resolveItems_congr rest (h.mono fun _ => List.mem_append_right _)]

theorem resolveFields_congr (fields : List (String × Json))
    (h : AgreeOn (fieldMentions fields) vars₁ vars₂)
    : resolveFields policy vars₁ fields = resolveFields policy vars₂ fields := by
  cases fields with
  | nil => rfl
  | cons field rest =>
    unfold resolveFields
    rw [resolve_congr field.2 (h.mono fun _ => List.mem_append_left _)]
    rw [resolveFields_congr rest (h.mono fun _ => List.mem_append_right _)]

end

/-- A value is filled in from the names that it mentions. -/
theorem resolve_of_namesIn {value : Json} (h : AgreeOn (namesIn value) vars₁ vars₂)
    : resolve policy vars₁ value = resolve policy vars₂ value :=
  resolve_congr policy value (h.mono fun _ => mem_distinct.mpr)

end Resolve

end Template

namespace Guard

open Text Template Json.Fields

theorem trim_isInfix (s : List Char) : trim s <:+: s := by
  unfold trim trimEnd trimStart
  exact (isPrefix_dropTail _ _).isInfix.trans (List.dropWhile_suffix _).isInfix

theorem unquote?_isInfix {s inner : List Char} (h : unquote? s = some inner) : inner <:+: s := by
  unfold unquote? at h
  split at h
  . next q rest =>
    split at h
    . simp only [Option.some.injEq] at h
      rw [← h]
      exact (List.dropLast_prefix rest).isInfix.trans (List.suffix_cons q rest).isInfix
    . cases h
  . cases h

theorem splitTerms_behind {s rest term : List Char} {more : List (Connective × List Char)}
    (connective : Connective) (hs : rest <:+ s) (hterm : term <+: rest)
    (hmore : ∀ joined ∈ more, joined.2 <:+: rest)
    : ∀ joined ∈ (connective, term) :: more, joined.2 <:+: s := by
  rw [List.forall_mem_cons]
  refine ⟨hterm.isInfix.trans hs.isInfix, ?_⟩
  exact fun joined hjoined => (hmore joined hjoined).trans hs.isInfix

theorem splitTerms_isInfix (scan : QuoteScan) (s : List Char)
    : (splitTerms scan s).1 <+: s ∧ ∀ joined ∈ (splitTerms scan s).2, joined.2 <:+: s := by
  fun_induction splitTerms scan s with
  | case1 => exact ⟨List.nil_prefix, List.forall_mem_nil _⟩
  | case2 rest term more hsplit ih =>
    rw [hsplit] at ih
    exact ⟨List.nil_prefix, splitTerms_behind .and ⟨['&', '&'], rfl⟩ ih.1 ih.2⟩
  | case3 rest term more hsplit ih =>
    rw [hsplit] at ih
    exact ⟨List.nil_prefix, splitTerms_behind .or ⟨['|', '|'], rfl⟩ ih.1 ih.2⟩
  | case4 scan c cs _ _ term more hsplit ih =>
    rw [hsplit] at ih
    refine ⟨List.cons_prefix_cons.mpr ⟨rfl, ih.1⟩, ?_⟩
    exact fun joined hjoined => (ih.2 joined hjoined).trans (List.suffix_cons c cs).isInfix

theorem splitComparison?_isInfix {scan : QuoteScan} {s left right : List Char} {op : Comparison}
    (h : splitComparison? scan s = some (left, op, right))
    : left <+: s ∧ right <:+ s := by
  fun_induction splitComparison? scan s generalizing left with
  | case1 => cases h
  | case2 rest =>
    simp only [Option.some.injEq, Prod.mk.injEq] at h
    rw [← h.1, ← h.2.2]
    exact ⟨List.nil_prefix, ['=', '='], rfl⟩
  | case3 rest =>
    simp only [Option.some.injEq, Prod.mk.injEq] at h
    rw [← h.1, ← h.2.2]
    exact ⟨List.nil_prefix, ['!', '='], rfl⟩
  | case4 scan c cs _ _ ih =>
    rw [Option.map_eq_some_iff] at h
    obtain ⟨⟨before, _, _⟩, hsplit, heq⟩ := h
    simp only [Prod.mk.injEq] at heq
    obtain ⟨rfl, rfl, rfl⟩ := heq
    obtain ⟨hbefore, hright⟩ := ih hsplit
    exact ⟨List.cons_prefix_cons.mpr ⟨rfl, hbefore⟩, hright.trans (List.suffix_cons c cs)⟩

theorem operand_congr {s : List Char} (h : ReadsAlike vars₁ vars₂ s)
    : operand vars₁ s = operand vars₂ s := by
  have htrim := h.part (trim_isInfix s)
  unfold operand
  split
  . next inner hinner => rw [(htrim.part (unquote?_isInfix hinner)).renderChars]
  . rw [htrim.renderChars]

theorem evalTerm_congr {term : List Char} (h : ReadsAlike vars₁ vars₂ term)
    : evalTerm vars₁ term = evalTerm vars₂ term := by
  unfold evalTerm
  split
  . next left right hsplit =>
    obtain ⟨hleft, hright⟩ := splitComparison?_isInfix hsplit
    rw [operand_congr (h.part hleft.isInfix), operand_congr (h.part hright.isInfix)]
  . next left right hsplit =>
    obtain ⟨hleft, hright⟩ := splitComparison?_isInfix hsplit
    rw [operand_congr (h.part hleft.isInfix), operand_congr (h.part hright.isInfix)]
  . rw [operand_congr h]

theorem eval_of_names {guard : String} (h : AgreeOn (names guard) vars₁ vars₂)
    : eval vars₁ guard = eval vars₂ guard := by
  have halike := readsAlike_of_agreeOn h
  obtain ⟨hfirst, hrest⟩ := splitTerms_isInfix .outside guard.toList
  unfold eval evalChars
  generalize splitTerms .outside guard.toList = terms at hfirst hrest
  obtain ⟨first, rest⟩ := terms
  dsimp only at hfirst hrest ⊢
  rw [evalTerm_congr (halike.part hfirst.isInfix)]
  apply List.foldl_ext
  intro sofar joined hjoined
  obtain ⟨connective, term⟩ := joined
  have hterm := evalTerm_congr (halike.part (hrest _ hjoined))
  cases connective with
  | and => exact congrArg (sofar && ·) hterm
  | or => exact congrArg (sofar || ·) hterm

end Guard

open Json.Fields in
/--
Values and guards read the names that they mention and no other ones: bindings that agree on these,
whatever else they bind, give the same value and the same truth.
-/
theorem Template.names_suffice (vars₁ vars₂ : Json.Fields)
    : (∀ value, AgreeOn (namesIn value) vars₁ vars₂ →
        ∀ policy, resolve policy vars₁ value = resolve policy vars₂ value) ∧
      (∀ guard, AgreeOn (names guard) vars₁ vars₂ → Guard.eval vars₁ guard = Guard.eval vars₂ guard)
    :=
  ⟨fun _ h policy => resolve_of_namesIn policy h, fun _ h => Guard.eval_of_names h⟩

theorem Template.names_suffice_of_unread_rest
    : let vars₁ : Json.Fields := [("a", .obj [("b", .int 1)]), ("rest", .str "left")]
      let vars₂ : Json.Fields := [("rest", .str "right"), ("a", .obj [("b", .int 1)])]
      let value := Json.arr [.str "\x7b a.b \x7d", .obj [("rest", .str "\x7b\x7ba\x7d\x7d \x7bmissing\x7d")]]
      let guard := "'\x7ba.b\x7d && \x7b' == '1 && \x7b' || \x7bmissing\x7d"
      resolve .keep vars₁ value = resolve .keep vars₂ value ∧
      Guard.eval vars₁ guard = Guard.eval vars₂ guard := by
  intro vars₁ vars₂ value guard
  have hagree : Json.Fields.AgreeOn ["a", "missing"] vars₁ vars₂ :=
    List.forall_mem_cons.mpr ⟨rfl, List.forall_mem_singleton.mpr rfl⟩
  have hvalue : namesIn value = ["a", "missing"] := by decide +kernel
  have hguard : names guard = ["a", "missing"] := by decide +kernel
  rw [← hvalue] at hagree
  refine ⟨(names_suffice vars₁ vars₂).1 value hagree .keep, ?_⟩
  rw [hvalue, ← hguard] at hagree
  exact (names_suffice vars₁ vars₂).2 guard hagree

end Runbook
