import Runbook.Proofs.Decimal
import Runbook.Proofs.Guard.Operand

/-!
This module contains guards that compare two texts. A placeholder and a quoted literal are sides of
a comparison whatever is bound and whatever is quoted: neither of them is ever taken for a part of
the guard. Within a literal the backslash before a quote keeps the literal open, but it stays in the
text that is compared.
-/

namespace Runbook.Guard

open Text

/-- A side of a comparison: no quote is left open, and no operator stands outside quotes. -/
structure IsSide (s : List Char) : Prop where
  closed : QuoteScan.outside.after s = .outside
  clear : IsClear ['&', '|', '=', '!'] .outside s

def comparing (left : List Char) (op : Comparison) (right : List Char) : List Char :=
  left ++ ' ' :: (op.sign ++ ' ' :: right)

def guardChars : List Char :=
  ['"', '\'', '&', '|', '=', '!']

theorem isSide_of_disjoint {s : List Char} (h : ∀ c ∈ s, c ∉ guardChars) : IsSide s where
  closed := by
    apply QuoteScan.after_of_no_quote
    intro c hc hquote
    apply h c hc
    obtain rfl | rfl := hquote <;> decide
  clear := by
    apply isClear_of_disjoint
    intro c hc hsign
    have hsub : ['&', '|', '=', '!'] ⊆ guardChars := by decide
    exact h c hc (hsub hsign)

theorem isSide_placeholder {path : Template.Path} {p : List Char} (h : Template.IsPath path p)
    : IsSide ('\x7b' :: (p ++ ['\x7d'])) := by
  have hother : ∀ c ∈ guardChars,
      Template.isNameChar c = false ∧ c ≠ '.' ∧ c ≠ '\x7b' ∧ c ≠ '\x7d' := by
    simp only [guardChars, List.forall_mem_cons, List.not_mem_nil, false_implies, implies_true]
    decide
  apply isSide_of_disjoint
  intro c hc hmem
  obtain ⟨hname, hpoint, hopen, hclose⟩ := hother c hmem
  rw [List.mem_cons, List.mem_append, List.mem_singleton] at hc
  obtain hc | hc | hc := hc
  . exact hopen hc
  . exact h.not_mem hname hpoint hc
  . exact hclose hc

theorem isSide_literal {q : Char} (hq : IsQuote q) (s : List Char) : IsSide (literal q s) where
  closed := after_literal hq s
  clear := by
    apply isClear_literal hq
    obtain rfl | rfl := hq <;> decide

theorem evalChars_comparing {left right : List Char} (hleft : IsSide left) (hright : IsSide right)
    (op : Comparison) (vars : Json.Fields)
    : evalChars vars (comparing left op right)
        =
      op.holds (operand vars left) (operand vars right) := by
  have hclosed : QuoteScan.outside.after (left ++ [' ']) = .outside := by
    rw [QuoteScan.after_append, hleft.closed]
    rfl
  have hclear : IsClear ['=', '!'] .outside (left ++ [' ']) := by
    rw [isClear_append_iff, hleft.closed]
    exact ⟨hleft.clear.mono (by decide), by simp [IsClear]⟩
  -- no connective stands outside the quotes of the two sides, so that the guard is a single term
  have hsingle : IsClear ['&', '|'] .outside (comparing left op right) := by
    have hright : IsClear ['&', '|'] .outside right := hright.clear.mono (by decide)
    unfold comparing
    rw [isClear_append_iff, hleft.closed]
    refine ⟨hleft.clear.mono (by decide), ?_⟩
    cases op with
    | equal => simpa [IsClear, Comparison.sign, QuoteScan.next] using hright
    | notEqual => simpa [IsClear, Comparison.sign, QuoteScan.next] using hright
  have hsplit : splitComparison? .outside (comparing left op right)
      = some (left ++ [' '], op, ' ' :: right) := by
    rw [← hclear.splitComparison? hclosed]
    simp [comparing]
  unfold evalChars
  rw [hsingle.splitTerms]
  dsimp only
  rw [List.foldl_nil, evalTerm_of_comparison vars hsplit]
  rw [operand_append_blank, operand_blank_cons]

theorem operand_literal {q : Char} (hq : IsQuote q) {s : List Char} (hbrace : '\x7b' ∉ s)
    (vars : Json.Fields)
    : operand vars (literal q s) = s.flatMap (escapeIn q) := by
  have hescaped : '\x7b' ∉ s.flatMap (escapeIn q) := by
    intro hmem
    obtain ⟨c, hc, hescape⟩ := List.mem_flatMap.mp hmem
    unfold escapeIn at hescape
    split at hescape
    . next hspecial =>
      have hbraced : '\x7b' = c := by simpa using hescape
      exact hbrace (hbraced ▸ hc)
    . rw [List.mem_singleton] at hescape
      exact hbrace (hescape ▸ hc)
  unfold literal
  rw [operand_quoted vars hq, Template.renderChars_of_no_brace hescaped]

/--
A placeholder is compared with a quoted text: what is bound and what stands between the quotes are
compared as they are, whatever operators, quotes or braces they hold.
-/
theorem eval_placeholder_literal {path : Template.Path} {p s : String} {q : Char}
    (hp : Template.IsPath path p.toList) (hq : IsQuote q)
    (hs : ∀ c ∈ s.toList, c ≠ '\x7b' ∧ c ≠ '\\' ∧ c ≠ q) (vars : Json.Fields)
    : let left := trim (Template.boundText vars p)
      eval vars ("\x7b" ++ p ++ "\x7d == " ++ q.toString ++ s ++ q.toString)
          = sameText left s.toList ∧
        eval vars ("\x7b" ++ p ++ "\x7d != " ++ q.toString ++ s ++ q.toString)
          = !sameText left s.toList := by
  have hplain : s.toList.flatMap (escapeIn q) = s.toList :=
    flatMap_escapeIn_eq_self fun c hc => ⟨(hs c hc).2.2, (hs c hc).2.1⟩
  have hbrace : '\x7b' ∉ s.toList := fun hmem => (hs _ hmem).1 rfl
  have heval (op : Comparison)
      : evalChars vars (comparing ('\x7b' :: (p.toList ++ ['\x7d'])) op (literal q s.toList))
          =
        op.holds (trim (Template.boundText vars p)) s.toList := by
    rw [evalChars_comparing (isSide_placeholder hp) (isSide_literal hq s.toList)]
    rw [operand_placeholder vars hp, operand_literal hq hbrace, hplain]
  unfold comparing literal at heval
  rw [hplain] at heval
  unfold eval
  constructor
  . simpa [Comparison.sign, Comparison.holds] using heval .equal
  . simpa [Comparison.sign, Comparison.holds] using heval .notEqual

theorem eval_placeholder_literal_of_operators
    : let p := "r.items.0"
      let s := "x' == 'y && z"
      let vars : Json.Fields := [("r", .obj [("items", .arr [.str " x' == 'y && z\"\x7br\x7d "])])]
      let left := trim (Template.boundText vars p)
      Template.IsPath [['r'], "items".toList, ['0']] p.toList ∧
      IsQuote '"' ∧
      (∀ c ∈ s.toList, c ≠ '\x7b' ∧ c ≠ '\\' ∧ c ≠ '"') ∧
      eval vars ("\x7b" ++ p ++ "\x7d == " ++ '"'.toString ++ s ++ '"'.toString)
        = sameText left s.toList ∧
      eval vars ("\x7b" ++ p ++ "\x7d != " ++ '"'.toString ++ s ++ '"'.toString)
        = !sameText left s.toList := by
  intro p s vars left
  have hp : Template.IsPath [['r'], "items".toList, ['0']] p.toList := by
    have htext : p.toList = ['r'] ++ Template.segmentsText ["items".toList, ['0']] := by decide
    have hitems : ∀ c ∈ "items".toList, Template.isNameChar c := List.all_eq_true.mp (by decide)
    have hsegments : ∀ s ∈ ["items".toList, ['0']], s ≠ [] ∧ ∀ c ∈ s, Template.isNameChar c := by
      rw [List.forall_mem_cons, List.forall_mem_singleton]
      exact ⟨⟨by decide, hitems⟩, List.cons_ne_nil _ _, List.forall_mem_singleton.mpr rfl⟩
    rw [htext]
    exact .mk (by decide) (List.forall_mem_nil _) hsegments
  have hs : ∀ c ∈ s.toList, c ≠ '\x7b' ∧ c ≠ '\\' ∧ c ≠ '"' := by simp [s]
  exact ⟨hp, .inl rfl, hs, eval_placeholder_literal hp (.inl rfl) hs vars⟩

theorem sameText_self (s : List Char) : sameText s s := by
  unfold sameText
  cases Binary64.read? s with
  | none => simp
  | some x => simp [Binary64.sameValue]

theorem sameText_of_not_numeral {s t : List Char} {c : Char} (hc : c ∈ s)
    (hnumeral : Decimal.isNumeralChar c = false)
    : sameText s t = true ↔ s = t := by
  have hread : Binary64.read? s = none := by
    unfold Binary64.read?
    rw [Option.bind_eq_none_iff]
    intro d hd
    have hchar := Decimal.isNumeralChar_of_read? (by rw [hd]; exact Option.some_ne_none d) c hc
    rw [hnumeral] at hchar
    cases hchar
  unfold sameText
  rw [hread]
  exact decide_eq_true_iff

theorem length_le_length_flatMap_escapeIn (q : Char) (s : List Char)
    : s.length ≤ (s.flatMap (escapeIn q)).length := by
  induction s with
  | nil => exact Nat.le_refl 0
  | cons c cs ih =>
    have hpos : 0 < (escapeIn q c).length := by
      unfold escapeIn
      split <;> exact Nat.succ_pos _
    rw [List.flatMap_cons, List.length_append, List.length_cons]
    omega

theorem flatMap_escapeIn_eq_self_iff {q : Char} {s : List Char}
    : s.flatMap (escapeIn q) = s ↔ ∀ c ∈ s, c ≠ q ∧ c ≠ '\\' := by
  refine ⟨fun h => ?_, flatMap_escapeIn_eq_self⟩
  induction s with
  | nil => exact List.forall_mem_nil _
  | cons c cs ih =>
    rw [List.flatMap_cons] at h
    by_cases hspecial : c = q ∨ c = '\\'
    . have hlonger := length_le_length_flatMap_escapeIn q cs
      have hlength := congrArg List.length h
      rw [escapeIn, if_pos hspecial] at hlength
      simp only [List.length_append, List.length_cons, List.length_nil] at hlength
      omega
    . rw [escapeIn, if_neg hspecial] at h
      exact List.forall_mem_cons.mpr ⟨not_or.mp hspecial, ih (List.cons.inj h).2⟩

theorem sameText_escaped_iff {s : List Char}
    : sameText s (s.flatMap (escapeIn '\'')) = true ↔ ∀ c ∈ s, c ≠ '\'' ∧ c ≠ '\\' := by
  constructor
  . intro h c hc
    rw [← not_or]
    intro hspecial
    have hnumeral : Decimal.isNumeralChar c = false := by
      obtain rfl | rfl := hspecial <;> rfl
    rw [sameText_of_not_numeral hc hnumeral, eq_comm, flatMap_escapeIn_eq_self_iff] at h
    exact not_or.mpr (h c hc) hspecial
  . intro h
    rw [flatMap_escapeIn_eq_self h]
    exact sameText_self s

/--
A bound text is compared with its own literal: the backslashes of the literal count as characters,
so that the two are equal exactly if there is nothing to escape.
-/
theorem eval_own_literal_iff {s : String} (hbrace : '\x7b' ∉ s.toList) {vars : Json.Fields}
    (hx : vars.get? "x" = some (.str s))
    : eval vars ("'\x7bx\x7d' == " ++ String.ofList (literal '\'' s.toList)) = true
        ↔
      ∀ c ∈ s.toList, c ≠ '\'' ∧ c ≠ '\\' := by
  have hquote : IsQuote '\'' := .inr rfl
  have hpath : Template.IsPath ["x".toList] "x".toList :=
    .mk (by decide) (List.forall_mem_nil _) (List.forall_mem_nil _)
  have hleft : operand vars (literal '\'' ['\x7b', 'x', '\x7d']) = s.toList := by
    have hplain : literal '\'' ['\x7b', 'x', '\x7d'] = '\'' :: (['\x7b', 'x', '\x7d'] ++ ['\'']) := by
      decide
    rw [hplain, operand_quoted vars hquote]
    exact (Template.renderChars_placeholder hpath vars).trans
      (Template.boundText_of_get? hpath hx)
  have heval := evalChars_comparing (isSide_literal hquote ['\x7b', 'x', '\x7d'])
    (isSide_literal hquote s.toList) .equal vars
  rw [hleft, operand_literal hquote hbrace] at heval
  have htext : ("'\x7bx\x7d' == " ++ String.ofList (literal '\'' s.toList)).toList
      = comparing (literal '\'' ['\x7b', 'x', '\x7d']) .equal (literal '\'' s.toList) := by
    simp [comparing, literal, escapeIn, Comparison.sign]
  unfold eval
  rw [htext, heval]
  exact sameText_escaped_iff

theorem eval_own_literal_of_operators
    : let s := "say \"a && b\" != c"
      let vars : Json.Fields := [("x", .str s)]
      '\x7b' ∉ s.toList ∧
      vars.get? "x" = some (.str s) ∧
      (eval vars ("'\x7bx\x7d' == " ++ String.ofList (literal '\'' s.toList)) = true
        ↔
      ∀ c ∈ s.toList, c ≠ '\'' ∧ c ≠ '\\') := by
  intro s vars
  have hbrace : '\x7b' ∉ s.toList := by decide
  have hx : vars.get? "x" = some (.str s) := rfl
  exact ⟨hbrace, hx, eval_own_literal_iff hbrace hx⟩

/-- An apostrophe that is escaped in a literal does not mean the apostrophe. -/
theorem eval_own_literal_ne_of_apostrophe
    : let s := "it's"
      let vars : Json.Fields := [("x", .str s)]
      '\x7b' ∉ s.toList ∧ '\x7d' ∉ s.toList ∧
      String.ofList (literal '\'' s.toList) = "'it\\'s'" ∧
      eval vars ("'\x7bx\x7d' == " ++ String.ofList (literal '\'' s.toList)) = false := by
  decide +kernel

end Runbook.Guard
