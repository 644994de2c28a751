import Runbook.Proofs.Binary64
import Runbook.Proofs.Guard.Comparison
import Runbook.Proofs.Source.Notation

/-!
This module contains guards that compare two whole numbers. Both are read as doubles, so that two
numbers count as equal if they are rounded to the same 53 significant bits.
-/

namespace Runbook.Guard

open Text Binary64

/-- The whole numbers that a value can hold: those of 64 bits, with a sign or without one. -/
def FitsWord (n : Int) : Prop :=
  -2 ^ 63 ≤ n ∧ n < 2 ^ 64

instance (n : Int) : Decidable (FitsWord n) :=
  inferInstanceAs (Decidable (_ ∧ _))

variable {m n : Int}

theorem sameText_intText_iff (hm : FitsWord m) (hn : FitsWord n)
    : sameText (Json.intText m) (Json.intText n) = true ↔ roundWhole m = roundWhole n := by
  have hbound {k : Int} (hk : FitsWord k) : k.natAbs < 2 ^ 64 := by
    unfold FitsWord at hk
    omega
  obtain ⟨x, hx, hxvalue⟩ := read?_intText (hbound hm)
  obtain ⟨y, hy, hyvalue⟩ := read?_intText (hbound hn)
  unfold sameText
  rw [hx, hy]
  dsimp only
  rw [sameValue_iff_toRat_eq, hxvalue, hyvalue]
  exact_mod_cast Iff.rfl

theorem operand_whole {name : String} {vars : Json.Fields}
    (hname : Template.IsPath [name.toList] name.toList) (h : vars.get? name = some (.int n))
    : operand vars ('\x7b' :: (name.toList ++ ['\x7d'])) = Json.intText n := by
  rw [operand_placeholder vars hname, Template.boundText_of_get? hname h]
  exact Source.trim_word Source.isKeyChar_of_mem_intText

/--
Two whole numbers count as equal exactly if they are rounded to the same number. This tells all
numbers of at most 53 significant bits apart, and one below `2 ^ 53` from every other number.
-/
theorem eval_whole_numbers_iff {vars : Json.Fields} (hm : FitsWord m) (hn : FitsWord n)
    (ha : vars.get? "a" = some (.int m)) (hb : vars.get? "b" = some (.int n))
    : (eval vars "\x7ba\x7d == \x7bb\x7d" = true ↔ roundWhole m = roundWhole n) ∧
        (IsShort m.natAbs ∧ IsShort n.natAbs ∨ m.natAbs < 2 ^ 53 ∨ n.natAbs < 2 ^ 53 →
          (eval vars "\x7ba\x7d == \x7bb\x7d" = true ↔ m = n)) := by
  have hapath : Template.IsPath ["a".toList] "a".toList :=
    .mk (by decide) (List.forall_mem_nil _) (List.forall_mem_nil _)
  have hbpath : Template.IsPath ["b".toList] "b".toList :=
    .mk (by decide) (List.forall_mem_nil _) (List.forall_mem_nil _)
  have hrounded : eval vars "\x7ba\x7d == \x7bb\x7d" = true ↔ roundWhole m = roundWhole n := by
    have heval := evalChars_comparing (isSide_placeholder hapath) (isSide_placeholder hbpath)
      .equal vars
    rw [operand_whole hapath ha, operand_whole hbpath hb] at heval
    rw [← sameText_intText_iff hm hn]
    exact iff_of_eq (congrArg (· = true) heval)
  refine ⟨hrounded, fun hexact => ?_⟩
  rw [hrounded]
  obtain ⟨hmshort, hnshort⟩ | hmsmall | hnsmall := hexact
  . rw [roundWhole_eq_self_iff.mpr hmshort, roundWhole_eq_self_iff.mpr hnshort]
  . exact roundWhole_eq_iff_of_lt hmsmall
  . rw [eq_comm, roundWhole_eq_iff_of_lt hnsmall, eq_comm]

theorem eval_whole_numbers_iff_of_largest
    : let m : Int := 18446744073709551615
      let n : Int := 9007199254740991
      let vars : Json.Fields := [("a", .int m), ("b", .int n)]
      FitsWord m ∧ FitsWord n ∧
      vars.get? "a" = some (.int m) ∧
      vars.get? "b" = some (.int n) ∧
      (eval vars "\x7ba\x7d == \x7bb\x7d" = true ↔ roundWhole m = roundWhole n) ∧
      (eval vars "\x7ba\x7d == \x7bb\x7d" = true ↔ m = n) := by
  intro m n vars
  have hm : FitsWord m := by decide
  have hn : FitsWord n := by decide
  have ha : vars.get? "a" = some (.int m) := rfl
  have hb : vars.get? "b" = some (.int n) := rfl
  obtain ⟨hrounded, hexact⟩ := eval_whole_numbers_iff hm hn ha hb
  exact ⟨hm, hn, ha, hb, hrounded, hexact (.inr (.inr (by decide)))⟩

/-- Of two neighbours above `2 ^ 53` the odd one is rounded to the even one. -/
theorem eval_equal_of_neighbours
    : let m : Int := 9007199254740993
      let n : Int := 9007199254740992
      let vars : Json.Fields := [("a", .int m), ("b", .int n)]
      FitsWord m ∧ FitsWord n ∧ m ≠ n ∧ eval vars "\x7ba\x7d == \x7bb\x7d" = true := by
  decide +kernel

end Runbook.Guard
