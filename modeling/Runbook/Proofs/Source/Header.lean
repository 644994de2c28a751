import Runbook.Proofs.Source.Row

/-!
This module contains the lines that begin a part of a text, as they are written and read: directives
with their arguments, step headers, and dashes with a key at any distance behind them.
-/

namespace Runbook.Source

open Text

/-- Whether a text is read as an argument of a directive: it is a word, and no comment. -/
def isArgument (text : String) : Bool :=
  isUnbroken text.toList && text.toList.head? ≠ some '#'

theorem isArgument_iff {text : String}
    : isArgument text ↔ isUnbroken text.toList ∧ text.toList.head? ≠ some '#' := by
  simp [isArgument]

def directiveSource (name first second : String) : List Char :=
  '@' :: (name.toList ++ ' ' :: first.toList ++ ' ' :: second.toList)

def directiveLine (name first second : String) (number : Nat) : Line :=
  ⟨number, 0, .directive name [first, second], String.ofList (directiveSource name first second)⟩

theorem isChain_append_word {s word : List Char} (hs : s.IsChain NoComment)
    (hword : isUnbroken word) (hfirst : word.head? ≠ some '#')
    : (s ++ ' ' :: word).IsChain NoComment := by
  rw [List.isChain_append, List.isChain_cons]
  refine ⟨hs, ⟨?_, isChain_of_isUnbroken hword⟩, ?_⟩
  . rintro c hc _ rfl
    exact hfirst hc
  . intro c _ d hd _
    cases hd
    decide

section Directive

variable {name first second : String} (hname : isArgument name) (hfirst : isArgument first)
  (hsecond : isArgument second)
include hname hfirst hsecond

theorem words_directive
    : words (stripComment (name.toList ++ ' ' :: first.toList ++ ' ' :: second.toList))
        =
      [name.toList, first.toList, second.toList] := by
  obtain ⟨hnameWord, hnameHash⟩ := isArgument_iff.mp hname
  obtain ⟨hfirstWord, hfirstHash⟩ := isArgument_iff.mp hfirst
  obtain ⟨hsecondWord, hsecondHash⟩ := isArgument_iff.mp hsecond
  have hchain := isChain_append_word
    (isChain_append_word (isChain_of_isUnbroken hnameWord) hfirstWord hfirstHash)
    hsecondWord hsecondHash
  have hhead : (name.toList ++ ' ' :: first.toList ++ ' ' :: second.toList).head? ≠ some '#' := by
    obtain ⟨c, cs, hcons⟩ := List.exists_cons_of_ne_nil (isUnbroken_iff.mp hnameWord).1
    rw [hcons] at hnameHash ⊢
    exact hnameHash
  have hsplit : name.toList ++ ' ' :: first.toList ++ ' ' :: second.toList
      = (name.toList ++ ' ' :: first.toList ++ [' ']) ++ second.toList := by
    simp
  -- no blanks are trimmed behind the last word
  rw [hsplit] at hchain hhead ⊢
  rw [stripComment_append hchain hhead hsecondWord, ← hsplit, List.append_assoc, List.cons_append]
  rw [words_append hnameWord rfl, words_append hfirstWord rfl, words_of_isUnbroken hsecondWord]

theorem readToken_directive (site : Site) (following : RawLines) (indent : Nat)
    : readToken site following (directiveSource name first second) indent
        =
      ⟨⟨.directive name [first, second], 0⟩, []⟩ := by
  have hwords := words_directive hname hfirst hsecond
  unfold directiveSource
  generalize name.toList ++ ' ' :: first.toList ++ ' ' :: second.toList = rest at hwords
  unfold readToken
  split
  . next other heq =>
    cases heq
    rw [hwords]
    simp only [List.map_cons, List.map_nil, String.ofList_toList]
    rfl
  . next hne => exact absurd rfl (hne rest)

theorem readsAs_directive
    : ReadsAs (directiveSource name first second ++ ['\n']) 1
        fun number => [directiveLine name first second number] := by
  have hstays (text : String) (h : isArgument text) : ∀ c ∈ text.toList, staysOnLine c := by
    intro c hc
    exact staysOnLine_of_not_isBlank ((isUnbroken_iff.mp (isArgument_iff.mp h).1).2 c hc)
  apply ReadsAs.single
  . intro c hc
    unfold directiveSource at hc
    simp only [List.mem_cons, List.mem_append] at hc
    obtain rfl | (hc | rfl | hc) | rfl | hc := hc
    . rfl
    . exact hstays name hname c hc
    . rfl
    . exact hstays first hfirst c hc
    . rfl
    . exact hstays second hsecond c hc
  . intro number following
    apply @readLine_indented _ 0 _ (List.cons_ne_nil _ _)
    . rintro c hc
      cases hc
      decide
    . intro site following
      exact readToken_directive hname hfirst hsecond site following 0

end Directive

def stepSource (id kind : String) (provider : Option String) : List Char :=
  's' :: 't' :: 'e' :: 'p' :: ' ' :: (id.toList ++
    ':' :: ' ' :: (kind.toList ++ valueSource (provider.map .plain)))

def stepLine (indent : Nat) (id kind : String) (provider : Option String) (number : Nat) : Line :=
  ⟨number, indent, .step id (some kind) provider,
    String.ofList (List.replicate indent ' ' ++ stepSource id kind provider)⟩

abbrev isKey (text : String) : Bool :=
  (Atom.plain text).isTidy

section Step

variable {id kind : String} {provider : Option String} (hid : isKey id) (hkind : isKey kind)
  (hprovider : ∀ name ∈ provider, isKey name)

include hkind hprovider in
theorem words_step
    : words (stripComment (' ' :: (kind.toList ++ valueSource (provider.map .plain))))
        =
      kind.toList :: provider.toList.map String.toList := by
  obtain ⟨hne, hword⟩ := Atom.mem_of_isTidy_plain hkind
  have hkindWord := isUnbroken_of_isKeyChar hne hword
  have hhash : '#' ∉ kind.toList := by
    intro hmem
    exact ne_of_isKeyChar (hword _ hmem) (rfl : isKeyChar '#' = false) rfl
  have hskip (rest : List Char) : words (' ' :: rest) = words rest := by
    conv => lhs; unfold words
    rfl
  cases provider with
  | none =>
    have hnone : '#' ∉ ' ' :: kind.toList := by
      simp [hhash]
    change words (stripComment (' ' :: (kind.toList ++ []))) = _
    rw [List.append_nil]
    have hstrip : stripComment (' ' :: kind.toList) = ' ' :: kind.toList :=
      stripComment_append (s := [' ']) (isChain_of_not_mem hnone) (by simp) hkindWord
    rw [hstrip, hskip]
    exact words_of_isUnbroken hkindWord
  | some name =>
    obtain ⟨hnameNe, hnameWord⟩ := Atom.mem_of_isTidy_plain (hprovider name rfl)
    have hnameUnbroken := isUnbroken_of_isKeyChar hnameNe hnameWord
    have hsome : '#' ∉ ' ' :: (kind.toList ++ ' ' :: name.toList) := by
      have hnameHash : '#' ∉ name.toList := by
        intro hmem
        exact ne_of_isKeyChar (hnameWord _ hmem) (rfl : isKeyChar '#' = false) rfl
      simp [hhash, hnameHash]
    have hsplit : ' ' :: (kind.toList ++ ' ' :: name.toList)
        = (' ' :: (kind.toList ++ [' '])) ++ name.toList := by
      simp
    change words (stripComment (' ' :: (kind.toList ++ ' ' :: name.toList))) = _
    rw [hsplit] at hsome ⊢
    rw [stripComment_append (isChain_of_not_mem hsome) (by simp) hnameUnbroken, ← hsplit, hskip]
    rw [words_append hkindWord rfl, words_of_isUnbroken hnameUnbroken]
    rfl

include hid hkind hprovider

theorem readStep?_stepSource (site : Site) (indent : Nat)
    : readStep? site (stepSource id kind provider) indent
        =
      some ⟨.step id (some kind) provider, []⟩ := by
  obtain ⟨hne, hword⟩ := Atom.mem_of_isTidy_plain hid
  obtain ⟨c, cs, hcons⟩ := List.exists_cons_of_ne_nil hne
  have hgap : ¬ isGap c := by
    rw [hcons] at hword
    have hc := hword c (List.mem_cons_self ..)
    simp [isGap, ne_of_isKeyChar hc (rfl : isKeyChar ' ' = false),
      ne_of_isKeyChar hc (rfl : isKeyChar '\t' = false)]
  have htail := words_step hkind hprovider
  unfold stepSource
  generalize ' ' :: (kind.toList ++ valueSource (provider.map .plain)) = tail at htail
  have hskip : (id.toList ++ ':' :: tail).dropWhile isGap = id.toList ++ ':' :: tail := by
    rw [hcons]
    exact List.dropWhile_cons_of_neg hgap
  have htake : (id.toList ++ ':' :: tail).takeWhile isKeyChar = id.toList := by
    rw [List.takeWhile_append_of_pos hword, List.takeWhile_cons_of_neg (by decide)]
    exact List.append_nil _
  have hdrop : (id.toList ++ ':' :: tail).dropWhile isKeyChar = ':' :: tail := by
    rw [List.dropWhile_append_of_pos hword, List.dropWhile_cons_of_neg (by decide)]
  have hcolon : (':' :: tail).dropWhile isGap = ':' :: tail := rfl
  have hempty : id.toList.isEmpty = false := List.isEmpty_eq_false_iff.mpr hne
  have hafter (rest : List Char) : afterStepWord? ('s' :: 't' :: 'e' :: 'p' :: ' ' :: rest)
      = some rest := rfl
  unfold readStep?
  rw [hafter, Option.bind_some, hskip]
  dsimp only
  rw [htake, hdrop, hcolon]
  split
  . next rest heq =>
    cases heq
    rw [hempty, htail, String.ofList_toList]
    cases provider <;> simp
  . next hne => exact absurd rfl (hne tail)

theorem readToken_stepSource (site : Site) (following : RawLines) (indent : Nat)
    : readToken site following (stepSource id kind provider) indent
        =
      ⟨⟨.step id (some kind) provider, 0⟩, []⟩ := by
  have hstep := readStep?_stepSource hid hkind hprovider site indent
  have hdash : afterDash? (stepSource id kind provider) = none := rfl
  unfold readToken
  split
  . next heq => cases heq
  . rw [hdash, hstep]
    rfl

theorem readsAs_stepLine (indent : Nat)
    : ReadsAs (List.replicate indent ' ' ++ stepSource id kind provider ++ ['\n']) 1
        fun number => [stepLine indent id kind provider number] := by
  have hkey (text : String) (h : isKey text) : ∀ c ∈ text.toList, staysOnLine c :=
    Atom.staysOnLine_source (h : (Atom.plain text).isTidy)
  apply ReadsAs.single
  . intro c hc
    unfold stepSource at hc
    simp only [List.mem_append, List.mem_cons, List.mem_replicate] at hc
    obtain ⟨_, rfl⟩ | rfl | rfl | rfl | rfl | rfl | hc | rfl | rfl | hc | hc := hc
    . rfl
    . rfl
    . rfl
    . rfl
    . rfl
    . rfl
    . exact hkey id hid c hc
    . rfl
    . rfl
    . exact hkey kind hkind c hc
    . cases provider with
      | none => cases hc
      | some name =>
        cases hc with
        | head => rfl
        | tail _ hc => exact hkey name (hprovider name rfl) c hc
  . intro number following
    apply readLine_indented (List.cons_ne_nil _ _)
    . rintro c hc
      cases hc
      decide
    . intro site following
      exact readToken_stepSource hid hkind hprovider site following indent

end Step

section Dash

variable {key : Atom} {value : Option Atom} (h : isTidyEntry key value) {gap : Nat} (hgap : 0 < gap)
include h hgap

end Dash

end Runbook.Source
