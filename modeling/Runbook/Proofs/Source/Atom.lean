import Runbook.Proofs.Source.Words
import Runbook.Source.Tree

/-!
This module contains the atoms of block notation as they are written: quoted texts with their
escapes and unquoted words. Each is read as itself where a key or a value can stand.
-/

namespace Runbook.Source

open Text

def escape (c : Char) : List Char :=
  if c = '"' then ['\\', '"']
  else if c = '\\' then ['\\', '\\']
  else if c = '\n' then ['\\', 'n']
  else if c = '\t' then ['\\', 't']
  else if c = '\r' then ['\\', 'r']
  else [c]

def quote (text : List Char) : List Char :=
  '"' :: (text.flatMap escape ++ ['"'])

namespace Atom

/-- An atom as it is written. -/
def source : Atom → List Char
  | plain text => text.toList
  | quoted text => quote text.toList

/-- Unquoted text has to be made of key characters to be read as a whole. -/
def isTidy : Atom → Bool
  | plain text => !text.toList.isEmpty && text.toList.all isKeyChar
  | quoted _ => true

end Atom

theorem escape_cases (c : Char)
    : (c = '"' ∨ c = '\\' ∨ c = '\n' ∨ c = '\t' ∨ c = '\r') ∨
      (c ≠ '"' ∧ c ≠ '\\' ∧ c ≠ '\n' ∧ c ≠ '\r' ∧ escape c = [c]) := by
  by_cases hescaped : c = '"' ∨ c = '\\' ∨ c = '\n' ∨ c = '\t' ∨ c = '\r'
  . exact .inl hescaped
  . simp only [not_or] at hescaped
    obtain ⟨hquote, hslash, hnewline, htab, hreturn⟩ := hescaped
    refine .inr ⟨hquote, hslash, hnewline, hreturn, ?_⟩
    unfold escape
    rw [if_neg hquote, if_neg hslash, if_neg hnewline, if_neg htab, if_neg hreturn]

theorem closeQuote?_escape (c : Char) (cs : List Char)
    : closeQuote? '"' (escape c ++ cs)
        =
      (closeQuote? '"' cs).map fun (text, rest) => (c :: text, rest) := by
  obtain hescaped | ⟨hquote, hslash, _, _, hescape⟩ := escape_cases c
  . obtain rfl | rfl | rfl | rfl | rfl := hescaped <;> rfl
  . rw [hescape, List.singleton_append]
    conv => lhs; unfold closeQuote?
    rw [if_neg hquote, if_neg hslash]

theorem closeQuote?_quote (text rest : List Char)
    : closeQuote? '"' (text.flatMap escape ++ '"' :: rest) = some (text, rest) := by
  induction text with
  | nil =>
    rw [List.flatMap_nil, List.nil_append]
    unfold closeQuote?
    rw [if_pos rfl]
  | cons c cs ih =>
    rw [List.flatMap_cons, List.append_assoc]
    rw [closeQuote?_escape, ih]
    rfl

def loneBlanks : List Char :=
  [' ', '\u0085', '\u00a0', '\u1680', '\u2028', '\u2029', '\u202f', '\u205f', '\u3000']

theorem not_isBlank_of_isKeyChar {c : Char} (h : isKeyChar c) : isBlank c = false := by
  have hcontrol : ∀ n < 14, 9 ≤ n → isKeyChar (Char.ofNat n) = false := by
    decide +kernel
  have hspace : ∀ n < 11, isKeyChar (Char.ofNat (0x2000 + n)) = false := by
    decide +kernel
  have hlone : loneBlanks.all (!isKeyChar ·) := by
    decide +kernel
  cases hblank : isBlank c with
  | false => rfl
  | true =>
    unfold isBlank at hblank
    simp only [Bool.or_eq_true, Bool.and_eq_true, decide_eq_true_eq, List.contains_iff_mem] at hblank
    obtain (⟨hlow, hhigh⟩ | ⟨hlow, hhigh⟩) | hother := hblank
    . have hkey := hcontrol c.toNat (by omega) hlow
      rw [Char.ofNat_toNat, h] at hkey
      cases hkey
    . have hkey := hspace (c.toNat - 0x2000) (by omega)
      rw [Nat.add_sub_cancel' hlow, Char.ofNat_toNat, h] at hkey
      cases hkey
    . have hkey := List.all_eq_true.mp hlone c hother
      rw [h] at hkey
      cases hkey

theorem ne_of_isKeyChar {c d : Char} (h : isKeyChar c) (hd : isKeyChar d = false) : c ≠ d := by
  intro hcd
  rw [hcd, hd] at h
  cases h

theorem isUnbroken_of_isKeyChar {s : List Char} (hne : s ≠ []) (h : ∀ c ∈ s, isKeyChar c)
    : isUnbroken s := by
  refine isUnbroken_iff.mpr ⟨hne, ?_⟩
  intro c hc
  exact not_isBlank_of_isKeyChar (h c hc)

theorem stripComment_word {s : List Char} (h : ∀ c ∈ s, isKeyChar c) : stripComment s = s := by
  cases s with
  | nil => rfl
  | cons c cs =>
    have hhash : '#' ∉ c :: cs := by
      intro hmem
      exact ne_of_isKeyChar (h _ hmem) (rfl : isKeyChar '#' = false) rfl
    apply stripComment_append (isChain_of_not_mem hhash) (s := [])
    . rintro hfirst
      cases hfirst
      exact hhash (List.mem_cons_self ..)
    . exact isUnbroken_of_isKeyChar (List.cons_ne_nil c cs) h

theorem trim_word {s : List Char} (h : ∀ c ∈ s, isKeyChar c) : trim s = s := by
  have hblank : ∀ c ∈ s, isBlank c = false := by
    intro c hc
    exact not_isBlank_of_isKeyChar (h c hc)
  apply trim_eq_self
  . exact fun c hc => hblank c (List.mem_of_head? hc)
  . exact fun c hc => hblank c (List.mem_of_getLast? hc)

def beginsAtom (c : Char) : Bool :=
  c = '"' || isKeyChar c

theorem not_isBlank_of_beginsAtom {c : Char} (h : beginsAtom c) : isBlank c = false := by
  unfold beginsAtom at h
  simp only [Bool.or_eq_true, decide_eq_true_eq] at h
  cases h with
  | inl hquote =>
    rw [hquote]
    rfl
  | inr hword => exact not_isBlank_of_isKeyChar hword

theorem ne_of_beginsAtom {c d : Char} (h : beginsAtom c) (hd : beginsAtom d = false) : c ≠ d := by
  intro hcd
  rw [hcd, hd] at h
  cases h

theorem trimStart_of_beginsAtom {c : Char} {cs : List Char} (h : beginsAtom c)
    : trimStart (c :: cs) = c :: cs := by
  apply trimStart_eq_self
  rintro _ ⟨⟩
  exact not_isBlank_of_beginsAtom h

namespace Atom

theorem mem_of_isTidy_plain {text : String} (h : (plain text).isTidy)
    : text.toList ≠ [] ∧ ∀ c ∈ text.toList, isKeyChar c := by
  unfold isTidy at h
  simp only [Bool.and_eq_true, Bool.not_eq_true', List.isEmpty_eq_false_iff, List.all_eq_true] at h
  exact h

theorem source_eq_cons {atom : Atom} (h : atom.isTidy)
    : ∃ c cs, atom.source = c :: cs ∧ beginsAtom c := by
  cases atom with
  | quoted text => exact ⟨'"', _, rfl, rfl⟩
  | plain text =>
    obtain ⟨hne, hword⟩ := mem_of_isTidy_plain h
    cases hchars : text.toList with
    | nil => exact absurd hchars hne
    | cons c cs =>
      refine ⟨c, cs, hchars, ?_⟩
      rw [hchars] at hword
      simp [beginsAtom, hword c (List.mem_cons_self ..)]

theorem trimStart_source {atom : Atom} (h : atom.isTidy) : trimStart atom.source = atom.source := by
  obtain ⟨c, cs, hsource, hc⟩ := source_eq_cons h
  rw [hsource]
  exact trimStart_of_beginsAtom hc

theorem stripComment_source {atom : Atom} (h : atom.isTidy)
    : ∃ c cs, stripComment atom.source = c :: cs ∧ beginsAtom c := by
  cases atom with
  | quoted text =>
    obtain ⟨t, ht⟩ := stripComment_cons (c := '"') rfl (by decide)
      (text.toList.flatMap escape ++ ['"'])
    exact ⟨'"', t, ht, rfl⟩
  | plain text =>
    obtain ⟨c, cs, hsource, hc⟩ := source_eq_cons h
    refine ⟨c, cs, ?_, hc⟩
    rw [← hsource]
    exact stripComment_word (mem_of_isTidy_plain h).2

theorem readKey?_source {atom : Atom} (h : atom.isTidy) {rest : List Char}
    (hrest : rest.dropWhile isKeyChar = rest)
    : readKey? (atom.source ++ rest) = some (atom.text.toList, rest) := by
  cases atom with
  | quoted text =>
    unfold source quote
    rw [List.cons_append, List.append_assoc]
    exact closeQuote?_quote text.toList rest
  | plain text =>
    obtain ⟨_, hword⟩ := mem_of_isTidy_plain h
    obtain ⟨c, cs, hsource, _⟩ := source_eq_cons h
    change text.toList = c :: cs at hsource
    have htake : rest.takeWhile isKeyChar = [] := by
      have happend := List.takeWhile_append_dropWhile (p := isKeyChar) (l := rest)
      rw [hrest] at happend
      simpa using happend
    have hplain : readKey? (text.toList ++ rest)
        = some ((text.toList ++ rest).takeWhile isKeyChar,
          (text.toList ++ rest).dropWhile isKeyChar) := by
      rw [hsource] at hword ⊢
      have hdouble := ne_of_isKeyChar (hword c (List.mem_cons_self ..))
        (rfl : isKeyChar '"' = false)
      have hsingle := ne_of_isKeyChar (hword c (List.mem_cons_self ..))
        (rfl : isKeyChar '\'' = false)
      rw [List.cons_append]
      unfold readKey?
      split
      . next heq => simp_all
      . next heq => simp_all
      . rfl
    change readKey? (text.toList ++ rest) = _
    rw [hplain, List.takeWhile_append_of_pos hword, List.dropWhile_append_of_pos hword]
    rw [htake, hrest, List.append_nil]
    rfl

end Atom

theorem splitKey?_source {atom : Atom} (h : atom.isTidy) : splitKey? atom.source = none := by
  have hkey := Atom.readKey?_source h (rfl : [].dropWhile isKeyChar = [])
  rw [List.append_nil] at hkey
  unfold splitKey?
  rw [hkey]
  dsimp only
  split
  . rfl
  . rfl

theorem quotedValue_quote (site : Site) (column : Nat) (text : List Char)
    : quotedValue site column '"' (text.flatMap escape ++ ['"'])
        =
      ⟨.atom (.quoted (String.ofList text)), []⟩ := by
  unfold quotedValue
  rw [closeQuote?_quote]
  rfl

theorem readValue_source {atom : Atom} (h : atom.isTidy) (site : Site) (following : RawLines)
    (column owner : Nat)
    : readValue site following atom.source column owner = ⟨⟨.atom atom, 0⟩, []⟩ := by
  obtain ⟨b, bs, hbare, hb⟩ := Atom.stripComment_source h
  have hbar := ne_of_beginsAtom hb (rfl : beginsAtom '|' = false)
  unfold readValue
  dsimp only
  rw [if_neg (by rw [hbare]; simp [hbar])]
  cases atom with
  | quoted text =>
    have hsource : (Atom.quoted text).source = '"' :: (text.toList.flatMap escape ++ ['"']) := rfl
    rw [hsource]
    split
    . next rest heq =>
      cases heq
      rw [quotedValue_quote, String.ofList_toList]
      rfl
    . next heq => simp at heq
    . next heq => simp at heq
    . next hne _ _ => exact absurd rfl (hne _)
  | plain text =>
    obtain ⟨_, hword⟩ := Atom.mem_of_isTidy_plain h
    obtain ⟨c, cs, hsource, hc⟩ := Atom.source_eq_cons h
    rw [hsource]
    change text.toList = c :: cs at hsource
    have hfirst : isKeyChar c := hword c (by rw [hsource]; exact List.mem_cons_self ..)
    have hdouble := ne_of_isKeyChar hfirst (rfl : isKeyChar '"' = false)
    have hsingle := ne_of_isKeyChar hfirst (rfl : isKeyChar '\'' = false)
    have hbracket := ne_of_isKeyChar hfirst (rfl : isKeyChar '[' = false)
    split
    . next heq => simp_all
    . next heq => simp_all
    . next heq => simp_all
    . rw [← hsource, stripComment_word hword, trim_word hword, String.ofList_toList]
      rfl

end Runbook.Source
