import Runbook.Proofs.Guard.Scan
import Runbook.Proofs.Source.Words
import Runbook.Proofs.Template.Division

/-!
This module contains the operands of guards: blanks around them do not count, the text between
quotes stands for itself, and a placeholder stands for the text of what is bound.
-/

namespace Runbook

open Text

namespace Template

theorem renderChars_of_no_brace {s : List Char} (h : '\x7b' ∉ s) (policy : MissingPolicy)
    (vars : Json.Fields)
    : renderChars policy vars s = s := by
  induction s with
  | nil => rfl
  | cons c cs ih =>
    rw [List.mem_cons, not_or] at h
    obtain ⟨_, text, rest, hs, hplaceholder, _⟩ | ⟨_, hfragments⟩ := fragments_cons c cs
    . obtain ⟨tail, rfl, _⟩ := hplaceholder.eq_cons
      exact absurd (List.cons.inj hs).1.symm h.1
    . have hrest := ih h.2
      unfold renderChars at hrest ⊢
      rw [hfragments, List.flatMap_cons, hrest]
      rfl

/-- The text of what is bound at a path, which is none if nothing is bound there. -/
def boundText (vars : Json.Fields) (path : String) : List Char :=
  ((lookup vars path).map valueText).getD []

theorem isPlaceholder_of_isPath {path : Path} {p : List Char} (h : IsPath path p)
    : IsPlaceholder path ('\x7b' :: (p ++ ['\x7d'])) := by
  have hplaceholder : IsPlaceholder path ('\x7b' :: ([] ++ p ++ [] ++ ['\x7d'])) :=
    .mk (List.forall_mem_nil _) h (List.forall_mem_nil _)
  rwa [List.nil_append, List.append_nil] at hplaceholder

theorem renderChars_placeholder {path : Path} {p : String} (h : IsPath path p.toList)
    (vars : Json.Fields)
    : renderChars .empty vars ('\x7b' :: (p.toList ++ ['\x7d'])) = boundText vars p := by
  have hlookup : lookup vars p = lookupPath vars path := by
    unfold lookup
    rw [h.splitPoints]
  unfold renderChars boundText
  rw [(isPlaceholder_of_isPath h).fragments, List.flatMap_singleton, hlookup]
  simp only [renderFragment]
  cases lookupPath vars path with
  | some value => rfl
  | none => rfl

theorem boundText_of_get? {vars : Json.Fields} {name : String} {value : Json}
    (hname : IsPath [name.toList] name.toList) (h : vars.get? name = some value)
    : boundText vars name = valueText value := by
  unfold boundText lookup
  rw [hname.splitPoints, lookupPath, String.ofList_toList, h]
  rfl

end Template

namespace Guard

variable (vars : Json.Fields) {q : Char}

theorem operand_append_blank (s : List Char) : operand vars (s ++ [' ']) = operand vars s := by
  unfold operand
  rw [Source.trim_append_blanks (List.forall_mem_singleton.mpr rfl)]

theorem operand_blank_cons (s : List Char) : operand vars (' ' :: s) = operand vars s := by
  unfold operand
  rw [← List.singleton_append, Source.trim_blanks_append (List.forall_mem_singleton.mpr rfl)]

theorem operand_quoted (hq : IsQuote q) (s : List Char)
    : operand vars (q :: (s ++ [q])) = Template.renderChars .empty vars s := by
  have hblank : isBlank q = false := by
    obtain rfl | rfl := hq <;> rfl
  have hunquote : unquote? (q :: (s ++ [q])) = some s := by
    have hquote : q = '"' ∨ q = '\'' := hq
    unfold unquote?
    simp [hquote]
  unfold operand
  rw [Source.trim_enclosed hblank hblank, hunquote]

theorem operand_placeholder {path : Template.Path} {p : String}
    (h : Template.IsPath path p.toList)
    : operand vars ('\x7b' :: (p.toList ++ ['\x7d'])) = trim (Template.boundText vars p) := by
  have hunquote : unquote? ('\x7b' :: (p.toList ++ ['\x7d'])) = none := by
    unfold unquote?
    simp
  unfold operand
  rw [Source.trim_enclosed rfl rfl, hunquote, Template.renderChars_placeholder h]

def Comparison.holds : Comparison → List Char → List Char → Bool
  | equal, left, right => sameText left right
  | notEqual, left, right => !sameText left right

theorem evalTerm_of_comparison {term left right : List Char} {op : Comparison}
    (h : splitComparison? .outside term = some (left, op, right))
    : evalTerm vars term = op.holds (operand vars left) (operand vars right) := by
  unfold evalTerm
  rw [h]
  cases op with
  | equal => rfl
  | notEqual => rfl

theorem evalTerm_of_none {term : List Char} (h : splitComparison? .outside term = none)
    : evalTerm vars term = isTruthy (operand vars term) := by
  unfold evalTerm
  rw [h]

end Guard

end Runbook
