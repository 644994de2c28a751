import Mathlib.Algebra.Order.Ring.Int
import Runbook.Proofs.Source.Build

/-!
This module contains the notation of JSON objects as blocks of lines. Reading what was written gives
the object again.
-/

namespace Runbook.Source

open Text Json

mutual

/-- The layout of a value. Strings are quoted, and other values that are no containers are not. -/
def layOut : Json → Document
  | .null => .atom (.plain "null")
  | .bool true => .atom (.plain "true")
  | .bool false => .atom (.plain "false")
  | .int n => .atom (.plain (String.ofList (intText n)))
  | .float x => .atom (.plain (String.ofList x.text))
  | .str s => .atom (.quoted s)
  | .arr items => .list (layOutItems items)
  | .obj fields => .map (layOutFields fields)

def layOutItems : List Json → List Document
  | [] => []
  | value :: rest => layOut value :: layOutItems rest

def layOutFields : List (String × Json) → List (Atom × Document)
  | [] => []
  | (key, value) :: rest => (.quoted key, layOut value) :: layOutFields rest

end

mutual

/--
Whether a value can be written as a block: its numbers are whole numbers of 64 bits, no array and no
object in it is empty, and no key is empty or repeated.
-/
def isExpressible : Json → Bool
  | .null => true
  | .bool _ => true
  | .int n => -2 ^ 63 ≤ n && n < 2 ^ 63
  | .float _ => false
  | .str _ => true
  | .arr items => !items.isEmpty && itemsExpressible items
  | .obj fields => !fields.isEmpty && fieldsExpressible fields

def itemsExpressible : List Json → Bool
  | [] => true
  | value :: rest => isExpressible value && itemsExpressible rest

/-- Whether the members of an object can be written as the lines of a block. -/
def fieldsExpressible : List (String × Json) → Bool
  | [] => true
  | (key, value) :: rest =>
    !key.toList.isEmpty && !(rest.any fun field => field.1 = key) && isExpressible value &&
      fieldsExpressible rest

end

/-- The members of an object in block notation. -/
def blockNotation (fields : Json.Fields) : String :=
  String.ofList (write (Document.entryRows 0 (layOutFields fields)))

theorem digits?_toDigits (n : Nat) : digits? (Nat.toDigits 10 n) = some n := by
  have hdigits : (Nat.toDigits 10 n).all Char.isDigit := by
    rw [List.all_eq_true]
    intro c hc
    exact Nat.isDigit_of_mem_toDigits (by decide) (by decide) hc
  unfold digits?
  rw [if_pos ⟨Nat.toDigits_ne_nil, hdigits⟩]
  exact congrArg some Nat.ofDigitChars_ten_toDigits

theorem toDigits_eq_cons (n : Nat) : ∃ c cs, Nat.toDigits 10 n = c :: cs ∧ c.isDigit := by
  cases hdigits : Nat.toDigits 10 n with
  | nil => exact absurd hdigits Nat.toDigits_ne_nil
  | cons c cs =>
    refine ⟨c, cs, rfl, ?_⟩
    apply Nat.isDigit_of_mem_toDigits (by decide : 0 < 10) (by decide)
    rw [hdigits]
    exact List.mem_cons_self ..

theorem int64?_toDigits {n : Nat} (h : n < 2 ^ 63) : int64? (Nat.toDigits 10 n) = some (n : Int) := by
  obtain ⟨c, cs, hdigits, hc⟩ := toDigits_eq_cons n
  have hread := digits?_toDigits n
  have hbound : n < 1 <<< 63 := by omega
  rw [hdigits] at hread ⊢
  have hnat : natBelow? (1 <<< 63) (c :: cs) = some n := by
    unfold natBelow?
    split
    . next heq =>
      cases heq
      cases hc
    . rw [hread, Option.filter_some, if_pos (decide_eq_true hbound)]
  unfold int64?
  split
  . next heq =>
    cases heq
    cases hc
  . rw [hnat]
    rfl

theorem int64?_intText {n : Int} (hlow : -2 ^ 63 ≤ n) (hhigh : n < 2 ^ 63)
    : int64? (intText n) = some n := by
  unfold intText
  split
  . next hneg =>
    have hbound : n.natAbs ≤ 1 <<< 63 := by omega
    have hvalue : -(n.natAbs : Int) = n := by omega
    rw [List.singleton_append]
    unfold int64?
    split
    . next r heq =>
      cases heq
      rw [digits?_toDigits, Option.filter_some, if_pos (decide_eq_true hbound)]
      exact congrArg some hvalue
    . next hne => exact absurd rfl (hne _)
  . next hpos =>
    have hbound : n.natAbs < 2 ^ 63 := by omega
    have hvalue : (n.natAbs : Int) = n := by omega
    rw [List.nil_append, int64?_toDigits hbound, hvalue]

theorem intText_eq_cons (n : Int)
    : ∃ c cs, intText n = c :: cs ∧ (c = '-' ∨ c.isDigit) := by
  unfold intText
  split
  . exact ⟨'-', _, rfl, .inl rfl⟩
  . obtain ⟨c, cs, hdigits, hc⟩ := toDigits_eq_cons n.natAbs
    exact ⟨c, cs, hdigits, .inr hc⟩

theorem isKeyChar_of_mem_intText {n : Int} : ∀ c ∈ intText n, isKeyChar c := by
  intro c hc
  unfold intText at hc
  rw [List.mem_append] at hc
  cases hc with
  | inl hsign =>
    split at hsign
    . rw [List.mem_singleton] at hsign
      rw [hsign]
      rfl
    . cases hsign
  | inr hdigit =>
    have := Nat.isDigit_of_mem_toDigits (by decide) (by decide) hdigit
    have halphanum : c.isAlphanum := by
      simp [Char.isAlphanum, this]
    simp [isKeyChar, isAlphanumeric_of_isAlphanum halphanum]

theorem toLower_of_isDigit {c : Char} (h : c.isDigit) : c.toLower = c := by
  unfold Char.isDigit at h
  simp only [Bool.and_eq_true, decide_eq_true_eq, ge_iff_le, UInt32.le_iff_toNat_le] at h
  unfold Char.toLower
  rw [dif_neg]
  rintro ⟨hlow, _⟩
  rw [ge_iff_le, UInt32.le_iff_toNat_le] at hlow
  have hchar : c.toNat = c.val.toNat := rfl
  have hletter : 'A'.val.toNat = 65 := rfl
  simp at h
  omega

theorem isWord_intText {word : String} {d : Char} {ds : List Char} (hword : word.toList = d :: ds)
    (hminus : d ≠ '-') (hdigit : ¬ d.isDigit) (n : Int)
    : isWord word (intText n) = false := by
  obtain ⟨c, cs, hchars, hc⟩ := intText_eq_cons n
  have hlower : c.toLower = c := by
    cases hc with
    | inl hsign =>
      rw [hsign]
      rfl
    | inr hdigit => exact toLower_of_isDigit hdigit
  have hne : c ≠ d := by
    rintro rfl
    cases hc with
    | inl hsign => exact hminus hsign
    | inr h => exact hdigit h
  unfold isWord
  rw [hchars, hword, List.map_cons, hlower]
  simp [hne]

theorem plainValue_intText_eq (n : Int)
    : plainValue (String.ofList (intText n))
        =
      match int64? (intText n) with
      | some n => .int n
      | none =>
        if looksNumeric (intText n) then
          match Binary64.read? (intText n) with
          | some x => .float x
          | none => .str (String.ofList (intText n))
        else
          .str (String.ofList (intText n)) := by
  have hnull := isWord_intText (rfl : "null".toList = 'n' :: "ull".toList) (by decide) (by decide) n
  have htrue := isWord_intText (rfl : "true".toList = 't' :: "rue".toList) (by decide) (by decide) n
  have hfalse :=
    isWord_intText (rfl : "false".toList = 'f' :: "alse".toList) (by decide) (by decide) n
  have hempty : ¬ (intText n = [] ∨ intText n = ['~'] ∨ isWord "null" (intText n)) := by
    obtain ⟨c, cs, hchars, hc⟩ := intText_eq_cons n
    rw [hnull, hchars]
    simp only [List.cons_ne_nil, List.cons.injEq, Bool.false_eq_true, or_false, false_or]
    rintro ⟨rfl, _⟩
    revert hc
    decide
  unfold plainValue
  dsimp only
  rw [String.toList_ofList, if_neg hempty, htrue, hfalse]
  rfl

theorem plainValue_intText {n : Int} (hlow : -2 ^ 63 ≤ n) (hhigh : n < 2 ^ 63)
    : plainValue (String.ofList (intText n)) = .int n := by
  rw [plainValue_intText_eq, int64?_intText hlow hhigh]

mutual

theorem layOut_toJson (value : Json) (h : isExpressible value) : (layOut value).toJson = value := by
  cases value with
  | null => rfl
  | bool b => cases b <;> rfl
  | int n =>
    unfold isExpressible at h
    simp only [Bool.and_eq_true, decide_eq_true_eq] at h
    exact plainValue_intText h.1 h.2
  | float x => cases h
  | str s => rfl
  | arr items =>
    unfold isExpressible at h
    simp only [Bool.and_eq_true] at h
    unfold layOut Document.toJson
    rw [layOutItems_toJson items h.2]
  | obj fields =>
    unfold isExpressible at h
    simp only [Bool.and_eq_true] at h
    unfold layOut Document.toJson
    rw [layOutFields_toJson fields h.2]

theorem layOutItems_toJson (items : List Json) (h : itemsExpressible items)
    : Document.itemsToJson (layOutItems items) = items := by
  cases items with
  | nil => rfl
  | cons value rest =>
    unfold itemsExpressible at h
    simp only [Bool.and_eq_true] at h
    unfold layOutItems Document.itemsToJson
    rw [layOut_toJson value h.1, layOutItems_toJson rest h.2]

theorem layOutFields_toJson (fields : List (String × Json)) (h : fieldsExpressible fields)
    : Document.entriesToJson (layOutFields fields) = fields := by
  cases fields with
  | nil => rfl
  | cons field rest =>
    obtain ⟨key, value⟩ := field
    unfold fieldsExpressible at h
    simp only [Bool.and_eq_true] at h
    unfold layOutFields Document.entriesToJson
    rw [layOut_toJson value h.1.2, layOutFields_toJson rest h.2]
    rfl

end

theorem any_layOutFields (key : String) (fields : List (String × Json))
    : (layOutFields fields).any (fun entry => entry.1.text = key)
        =
      fields.any fun field => field.1 = key := by
  induction fields with
  | nil => rfl
  | cons field rest ih =>
    obtain ⟨other, value⟩ := field
    unfold layOutFields
    rw [List.any_cons, List.any_cons, ih]
    rfl

mutual

theorem layOut_isTidy (value : Json) (h : isExpressible value) : (layOut value).isTidy := by
  cases value with
  | null => decide
  | bool b => cases b <;> decide
  | int n =>
    obtain ⟨c, cs, hchars, _⟩ := intText_eq_cons n
    have hword := isKeyChar_of_mem_intText (n := n)
    change (!(String.ofList (intText n)).toList.isEmpty &&
      (String.ofList (intText n)).toList.all isKeyChar) = true
    rw [String.toList_ofList, Bool.and_eq_true, List.all_eq_true]
    refine ⟨?_, hword⟩
    rw [hchars]
    rfl
  | float x => cases h
  | str s => rfl
  | arr items =>
    unfold isExpressible at h
    simp only [Bool.and_eq_true] at h
    unfold layOut Document.isTidy
    rw [layOutItems_isTidy items h.2, Bool.and_true]
    cases items with
    | nil => exact h.1
    | cons value rest => rfl
  | obj fields =>
    unfold isExpressible at h
    simp only [Bool.and_eq_true] at h
    unfold layOut Document.isTidy
    rw [layOutFields_isTidy fields h.2, Bool.and_true]
    cases fields with
    | nil => exact h.1
    | cons field rest => rfl

theorem layOutItems_isTidy (items : List Json) (h : itemsExpressible items)
    : Document.itemsTidy (layOutItems items) := by
  cases items with
  | nil => rfl
  | cons value rest =>
    unfold itemsExpressible at h
    simp only [Bool.and_eq_true] at h
    unfold layOutItems Document.itemsTidy
    rw [layOut_isTidy value h.1, layOutItems_isTidy rest h.2]
    rfl

theorem layOutFields_isTidy (fields : List (String × Json)) (h : fieldsExpressible fields)
    : Document.entriesTidy (layOutFields fields) := by
  cases fields with
  | nil => rfl
  | cons field rest =>
    obtain ⟨key, value⟩ := field
    unfold fieldsExpressible at h
    simp only [Bool.and_eq_true] at h
    obtain ⟨⟨⟨hkey, hnew⟩, hvalue⟩, hrest⟩ := h
    unfold layOutFields Document.entriesTidy
    rw [layOut_isTidy value hvalue, layOutFields_isTidy rest hrest, any_layOutFields]
    simp only [Bool.and_true, Bool.and_eq_true]
    exact ⟨⟨rfl, hkey⟩, hnew⟩

end

/-- Reading an object in block notation gives the object, with its keys in their order. -/
theorem read_blockNotation {fields : Json.Fields} (h : fieldsExpressible fields)
    : let lines := linesOf (blockNotation fields)
      let tree := buildTree lines.value
      lines.notes = [] ∧
      tree.notes = [] ∧
      (Node.map tree.value).toJson = .obj fields := by
  have hread := Document.read_write (layOutFields_isTidy fields h)
  rw [layOutFields_toJson fields h] at hread
  exact hread

def nestedFields : Json.Fields :=
  [("say \"hi\"", .str "# no\tcomment"),
    ("list", .arr [.int (-5), .arr [.bool true, .arr [.str "- deep"]],
      .obj [("inner", .obj [("x", .null)]), ("next", .arr [.int 9223372036854775807])]])]

theorem read_blockNotation_nestedFields
    : let source := String.intercalate "\n"
        ["\"say \\\"hi\\\"\": \"# no\\tcomment\"",
          "\"list\":",
          "  - -5",
          "  -",
          "    - true",
          "    -",
          "      - \"- deep\"",
          "  - \"inner\":",
          "      \"x\": null",
          "    \"next\":",
          "      - 9223372036854775807",
          ""]
      blockNotation nestedFields = source ∧
      (linesOf source).notes = [] ∧
      (buildTree (linesOf source).value).notes = [] ∧
      (Node.map (buildTree (linesOf source).value).value).toJson = .obj nestedFields := by
  intro source
  have hsource : blockNotation nestedFields = source := by
    decide +kernel
  have hread := read_blockNotation (by decide : fieldsExpressible nestedFields)
  rw [hsource] at hread
  exact ⟨hsource, hread⟩

end Runbook.Source
