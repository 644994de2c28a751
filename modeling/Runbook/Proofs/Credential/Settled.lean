import Runbook.Proofs.Credential.Find

/-!
This module contains which texts the removal of credentials leaves as they are: those in which every
credential that is found is a mark already.
-/

namespace Runbook.Credential

open Text

/-- A credential that a text shows: it is found in the text, and it is not a mark already. -/
def Shape.Shows (shape : Shape) (word s : List Char) : Prop :=
  ∃ rest, word ++ rest <:+ s ∧ shape.find? (word ++ rest) = some ((), word.length) ∧
    word ≠ shape.mark

def Shape.IsAbsent (shape : Shape) (s : List Char) : Prop :=
  ∀ word, ¬ shape.Shows word s

section Absence

variable {shape other : Shape} {s : List Char}

theorem Shape.IsAbsent.eq_mark (h : shape.IsAbsent s) {word rest : List Char}
    (hsuffix : word ++ rest <:+ s) (hfind : shape.find? (word ++ rest) = some ((), word.length))
    : word = shape.mark := by
  by_contra hne
  exact h word ⟨rest, hsuffix, hfind, hne⟩

theorem Shape.IsAbsent.of_suffix (h : shape.IsAbsent s) {t : List Char} (ht : t <:+ s)
    : shape.IsAbsent t :=
  fun word ⟨rest, hsuffix, hfind, hne⟩ => h word ⟨rest, hsuffix.trans ht, hfind, hne⟩

theorem Shape.isAbsent_nil (hshape : shape ∈ catalogue) : shape.IsAbsent [] := by
  intro word ⟨rest, hsuffix, hfind, _⟩
  rw [List.suffix_nil] at hsuffix
  rw [hsuffix] at hfind
  obtain ⟨_, _, hc, _⟩ := head?_of_find? hshape hfind
  cases hc

theorem Shape.IsAbsent.cons {c : Char} (hs : shape.IsAbsent s) (hhead : shape.find? (c :: s) = none)
    : shape.IsAbsent (c :: s) := by
  intro word ⟨rest, hsuffix, hfind, hne⟩
  rw [List.suffix_cons_iff] at hsuffix
  obtain hwhole | hsuffix := hsuffix
  . rw [hwhole, hhead] at hfind
    cases hfind
  . exact hs word ⟨rest, hsuffix, hfind, hne⟩

theorem Shape.IsAbsent.mark_append (hshape : shape ∈ catalogue) (hother : other ∈ catalogue)
    (hs : shape.IsAbsent s)
    (hhead : ∀ n, shape.find? (other.mark ++ s) = some ((), n) → (other.mark ++ s).take n = shape.mark)
    : shape.IsAbsent (other.mark ++ s) := by
  intro word ⟨rest, hsuffix, hfind, hne⟩
  obtain hsuffix | ⟨m, hm, hnil, hsuffix⟩ := suffix_append_cases hsuffix
  . exact hs word ⟨rest, hsuffix, hfind, hne⟩
  . by_cases hwhole : m = other.mark
    . rw [hm, hwhole] at hfind
      apply hne
      rw [← hhead word.length hfind, ← hwhole, ← hm, List.take_left]
    . rw [hm, find?_within_mark hshape hother hnil hsuffix hwhole] at hfind
      cases hfind

theorem Shape.redact_cons {c : Char} {cs : List Char} (h : shape.find? (c :: cs) = none)
    : shape.redact (c :: cs) = c :: shape.redact cs :=
  replaceAll_cons h

theorem Shape.redact_found (hshape : shape ∈ catalogue) {n : Nat}
    (h : shape.find? s = some ((), n))
    : ∃ word rest, s = word ++ rest ∧ n = word.length ∧
        shape.redact s = shape.mark ++ shape.redact rest := by
  obtain ⟨hpos, hle⟩ := isSearch_find? hshape s () n h
  have hlength : (s.take n).length = n := List.length_take_of_le hle
  refine ⟨s.take n, s.drop n, (List.take_append_drop n s).symm, hlength.symm, ?_⟩
  have hne : s.take n ≠ [] := by
    rw [← List.length_pos_iff, hlength]
    exact hpos
  rw [← List.take_append_drop n s] at h
  conv => lhs; rw [← List.take_append_drop n s]
  apply replaceAll_found hne
  rw [h, hlength]

theorem Shape.IsAbsent.redact (hshape : shape ∈ catalogue) (h : shape.IsAbsent s)
    : shape.redact s = s := by
  induction s using replacement_induction (isSearch_find? hshape) with
  | nil => rfl
  | found word rest value hne hfind ih =>
    have hword : word = shape.mark := h.eq_mark List.suffix_rfl hfind
    unfold Shape.redact at ih ⊢
    rw [replaceAll_found hne hfind, ih (h.of_suffix (List.suffix_append word rest)), hword]
    rfl
  | char c cs hnone ih =>
    rw [shape.redact_cons hnone, ih (h.of_suffix (List.suffix_cons c cs))]

end Absence

def redactShapes (shapes : List Shape) (s : List Char) : List Char :=
  shapes.foldl (fun s shape => shape.redact s) s

def tokenShapes : List Shape :=
  [apiKey, bearerToken, openaiKey, githubToken, slackToken]

theorem catalogue_eq : catalogue = tokenShapes ++ [password] := rfl

theorem mem_catalogue_iff {shape : Shape}
    : shape ∈ catalogue ↔ shape ∈ tokenShapes ∨ shape = password := by
  rw [catalogue_eq, List.mem_append, List.mem_singleton]

theorem password_mem : password ∈ catalogue :=
  mem_catalogue_iff.mpr (.inr rfl)

section Passes

variable {shapes before after : List Shape} {shape other : Shape} {s : List Char}

theorem mem_of_mem_tokenShapes (h : shape ∈ tokenShapes) : shape ∈ catalogue :=
  mem_catalogue_iff.mpr (.inl h)

theorem name_ne_of_mem_tokenShapes : ∀ shape ∈ tokenShapes, shape.name ≠ password.name := by
  decide +kernel

theorem redactShapes_cons
    : redactShapes (shape :: shapes) s = redactShapes shapes (shape.redact s) := rfl

theorem redactShapes_singleton : redactShapes [shape] s = shape.redact s := rfl

theorem redactShapes_append
    : redactShapes (before ++ after) s = redactShapes after (redactShapes before s) :=
  List.foldl_append

theorem redactChars_eq_redactShapes (s : List Char) : redactChars s = redactShapes catalogue s := by
  unfold redactChars redactShapes
  rfl

theorem redactChars_eq (s : List Char)
    : redactChars s = password.redact (redactShapes tokenShapes s) := by
  rw [redactChars_eq_redactShapes, catalogue_eq, redactShapes_append, redactShapes_singleton]

theorem redactShapes_empty (hshapes : ∀ shape ∈ shapes, shape ∈ catalogue)
    : redactShapes shapes [] = [] := by
  induction shapes with
  | nil => rfl
  | cons shape shapes ih => exact ih fun shape hshape => hshapes shape (List.mem_cons_of_mem _ hshape)

theorem redactShapes_of_isAbsent (hshapes : ∀ shape ∈ shapes, shape ∈ catalogue)
    (hs : ∀ shape ∈ shapes, shape.IsAbsent s)
    : redactShapes shapes s = s := by
  induction shapes with
  | nil => rfl
  | cons shape shapes ih =>
    rw [List.forall_mem_cons] at hshapes hs
    rw [redactShapes_cons, hs.1.redact hshapes.1, ih hshapes.2 hs.2]

theorem redactShapes_mark (hshapes : ∀ shape ∈ shapes, shape ∈ catalogue)
    (hother : other ∈ catalogue)
    (hname : ∀ shape ∈ shapes, shape.name ≠ password.name ∨ other.name ≠ password.name)
    (t : List Char)
    : redactShapes shapes (other.mark ++ t) = other.mark ++ redactShapes shapes t := by
  induction shapes generalizing t with
  | nil => rfl
  | cons shape shapes ih =>
    rw [List.forall_mem_cons] at hshapes hname
    rw [redactShapes_cons, redact_mark hshapes.1 hother hname.1, ih hshapes.2 hname.2]
    rfl

theorem redactShapes_blank (hshapes : ∀ shape ∈ shapes, shape ∈ catalogue) {c : Char}
    (hc : isBlank c) (cs : List Char)
    : redactShapes shapes (c :: cs) = c :: redactShapes shapes cs := by
  induction shapes generalizing cs with
  | nil => rfl
  | cons shape shapes ih =>
    rw [List.forall_mem_cons] at hshapes
    rw [redactShapes_cons, shape.redact_cons (find?_of_isBlank hshapes.1 hc cs), ih hshapes.2]
    rfl

theorem redactShapes_char {c : Char} {cs : List Char}
    (h : ∀ before shape after, shapes = before ++ shape :: after →
      shape.find? (redactShapes before (c :: cs)) = none)
    : redactShapes shapes (c :: cs) = c :: redactShapes shapes cs := by
  induction shapes using List.reverseRecOn with
  | nil => rfl
  | append_singleton front last ih =>
    have hfront : redactShapes front (c :: cs) = c :: redactShapes front cs := by
      apply ih
      rintro before shape after rfl
      exact h before shape (after ++ [last]) (by simp)
    have hlast := h front last [] rfl
    rw [redactShapes_append, redactShapes_append]
    rw [hfront] at hlast ⊢
    exact last.redact_cons hlast

theorem countP_redactShapes_le (hshapes : ∀ shape ∈ shapes, shape ∈ catalogue) (s : List Char)
    : (redactShapes shapes s).countP isQuote ≤ s.countP isQuote := by
  have hmarks : ∀ shape ∈ catalogue, shape.mark.countP isQuote = 0 := by decide +kernel
  induction shapes generalizing s with
  | nil => exact Nat.le_refl _
  | cons shape shapes ih =>
    rw [List.forall_mem_cons] at hshapes
    have hhead := countP_replaceAll_le (isSearch_find? hshapes.1) (hmarks shape hshapes.1) s
    exact (ih hshapes.2 (shape.redact s)).trans hhead

end Passes

section Fixed

variable {before after : List Shape} {shape : Shape}

theorem find?_of_fixed {s : List Char} (hsplit : tokenShapes = before ++ shape :: after)
    (hs : redactChars s = s)
    : shape.find? (redactShapes before s) = none := by
  have htokens : ∀ other ∈ before ++ shape :: after, other ∈ catalogue := by
    rw [← hsplit]
    exact fun other => mem_of_mem_tokenShapes
  simp only [List.forall_mem_append, List.forall_mem_cons] at htokens
  obtain ⟨hbefore, hshape, hafter⟩ := htokens
  have hname : shape.name ≠ password.name := by
    apply name_ne_of_mem_tokenShapes
    rw [hsplit]
    exact List.mem_append_right _ List.mem_cons_self
  rw [Option.eq_none_iff_forall_ne_some]
  intro ⟨_, n⟩ hfind
  -- a mark would be there at the end, and so at the beginning, but no shape is found in its mark
  obtain ⟨y, hy⟩ : ∃ y, s = shape.mark ++ y := by
    obtain ⟨word, rest, _, _, hredact⟩ := shape.redact_found hshape hfind
    refine ⟨redactShapes (after ++ [password]) (shape.redact rest), ?_⟩
    have hcatalogue : catalogue = before ++ ([shape] ++ (after ++ [password])) := by
      rw [catalogue_eq, hsplit]
      simp
    have hlater : ∀ other ∈ after ++ [password], other ∈ catalogue := by
      rw [List.forall_mem_append, List.forall_mem_singleton]
      exact ⟨hafter, password_mem⟩
    rw [← redactShapes_mark hlater hshape fun _ _ => .inr hname, ← hredact]
    conv => lhs; rw [← hs]
    rw [redactChars_eq_redactShapes, hcatalogue]
    rw [redactShapes_append, redactShapes_append, redactShapes_singleton]
  rw [hy, redactShapes_mark hbefore hshape fun _ _ => .inr hname] at hfind
  rw [find?_own_mark hshape hname] at hfind
  cases hfind

theorem redactShapes_char_of_fixed {c : Char} {cs : List Char} (hsplit : tokenShapes = before ++ after)
    (hs : redactChars (c :: cs) = c :: cs)
    : redactShapes before (c :: cs) = c :: redactShapes before cs := by
  apply redactShapes_char
  rintro earlier shape later rfl
  apply find?_of_fixed _ hs
  . exact later ++ after
  . rw [hsplit, List.append_assoc, List.cons_append]

theorem rest_of_password_mark {word rest : List Char}
    (hfind : password.find? (word ++ rest) = some ((), word.length))
    (htext : word ++ rest = password.mark ++ redactShapes tokenShapes (password.redact rest))
    : rest = redactShapes tokenShapes (password.redact rest) := by
  have htokens : ∀ shape ∈ tokenShapes, shape ∈ catalogue := fun shape => mem_of_mem_tokenShapes
  generalize hy : password.redact rest = y at htext ⊢
  obtain ⟨value, closing, rest', hbehind, hvalue, hclosing⟩ :=
    exists_passwordValue (redactShapes tokenShapes y)
  rw [htext, hbehind, find?_password_mark hvalue hclosing, Option.some.injEq, Prod.mk.injEq] at hfind
  rw [hbehind, ← List.append_assoc value, ← List.append_assoc] at htext
  obtain ⟨rfl, rfl⟩ := List.append_inj htext hfind.2.symm
  have hquotes : (value ++ (closing ++ rest)).countP isQuote ≤ rest.countP isQuote := by
    rw [← hbehind]
    apply (countP_redactShapes_le htokens y).trans
    rw [← hy]
    exact countP_replaceAll_le (isSearch_find? password_mem) (by decide +kernel) rest
  obtain rfl : closing = [] := by
    rw [← List.length_eq_zero_iff,
      ← List.countP_eq_length.mpr (takeWhile_limited_iff.mp hclosing).1]
    simp only [List.countP_append] at hquotes
    omega
  rw [List.nil_append] at hbehind hvalue
  rw [hbehind]
  rw [takeWhile_append_iff] at hvalue
  cases rest with
  | nil =>
    have hnil : y = [] := hy.symm
    rw [hnil, redactShapes_empty htokens] at hbehind
    rw [← hbehind]
  | cons d rest =>
    have hblank := isBlank_behind_value hvalue.2 hclosing d rfl
    rw [password.redact_cons (find?_of_isBlank password_mem hblank rest)] at hy
    rw [← hy, redactShapes_blank htokens hblank] at hbehind
    cases value with
    | nil => rfl
    | cons first value =>
      rw [List.cons_append, List.cons.injEq] at hbehind
      have hfirst := hvalue.1 first List.mem_cons_self
      rw [← hbehind.1] at hfirst
      unfold isValueChar at hfirst
      simp [hblank] at hfirst

theorem isAbsent_cons_of_fixed {c : Char} {cs : List Char} (hs : redactChars (c :: cs) = c :: cs)
    (hfind : password.find? (redactShapes tokenShapes (c :: cs)) = none)
    (hcs : ∀ shape ∈ catalogue, shape.IsAbsent cs) (hshape : shape ∈ catalogue)
    : shape.IsAbsent (c :: cs) := by
  have hsame : ∀ before after, tokenShapes = before ++ after →
      redactShapes before (c :: cs) = c :: cs := by
    intro before after hsplit
    have hbefore : ∀ shape ∈ before, shape ∈ catalogue := by
      intro shape hshape
      apply mem_of_mem_tokenShapes
      rw [hsplit]
      exact List.mem_append_left _ hshape
    rw [redactShapes_char_of_fixed hsplit hs,
      redactShapes_of_isAbsent hbefore fun shape hshape => hcs shape (hbefore shape hshape)]
  have habsent : shape.IsAbsent cs := hcs shape hshape
  rw [mem_catalogue_iff] at hshape
  cases hshape with
  | inl htoken =>
    obtain ⟨before, after, hsplit⟩ := List.append_of_mem htoken
    have hnone := find?_of_fixed hsplit hs
    rw [hsame before _ hsplit] at hnone
    exact habsent.cons hnone
  | inr hpassword =>
    rw [hsame tokenShapes [] (List.append_nil _).symm, ← hpassword] at hfind
    exact habsent.cons hfind

theorem isAbsent_mark_of_fixed {y : List Char}
    (hfind : password.find? (password.mark ++ y) = some ((), password.mark.length))
    (habsent : shape.IsAbsent y) (hshape : shape ∈ catalogue)
    : shape.IsAbsent (password.mark ++ y) := by
  apply habsent.mark_append hshape password_mem
  intro n hn
  rw [mem_catalogue_iff] at hshape
  cases hshape with
  | inl htoken =>
    rw [find?_mark (mem_of_mem_tokenShapes htoken) password_mem
      (.inl (name_ne_of_mem_tokenShapes shape htoken))] at hn
    cases hn
  | inr hpassword =>
    rw [hpassword, hfind, Option.some.injEq, Prod.mk.injEq] at hn
    rw [hpassword, ← hn.2, List.take_left]

theorem fixed_tail {c : Char} {cs : List Char} (hs : redactChars (c :: cs) = c :: cs)
    (hfind : password.find? (redactShapes tokenShapes (c :: cs)) = none)
    : redactChars cs = cs := by
  have htokens := redactShapes_char_of_fixed (List.append_nil tokenShapes).symm hs
  rw [htokens] at hfind
  rw [redactChars_eq, htokens, password.redact_cons hfind, List.cons.injEq] at hs
  rw [redactChars_eq]
  exact hs.2

theorem fixed_behind_mark {s : List Char} {n : Nat} (hs : redactChars s = s)
    (hfind : password.find? (redactShapes tokenShapes s) = some ((), n))
    : ∃ y, s = password.mark ++ y ∧ redactChars y = y ∧
        password.find? (password.mark ++ redactShapes tokenShapes y)
          = some ((), password.mark.length) := by
  obtain ⟨word, rest, hword, rfl, hredact⟩ := password.redact_found password_mem hfind
  have hmark : s = password.mark ++ password.redact rest := by
    rw [← hredact, ← redactChars_eq, hs]
  have htext : word ++ rest
      = password.mark ++ redactShapes tokenShapes (password.redact rest) := by
    have hmarked := congrArg (redactShapes tokenShapes) hmark
    rw [hword, redactShapes_mark (fun shape => mem_of_mem_tokenShapes) password_mem
      fun shape hshape => .inl (name_ne_of_mem_tokenShapes shape hshape)] at hmarked
    exact hmarked
  rw [hword] at hfind
  have hrest := rest_of_password_mark hfind htext
  rw [htext] at hfind
  rw [← hrest, List.append_cancel_right_eq] at htext
  refine ⟨password.redact rest, hmark, ?_, ?_⟩
  . rw [redactChars_eq, ← hrest]
  . rw [hfind, htext]

theorem isAbsent_of_fixed {s : List Char} (hs : redactChars s = s) (hshape : shape ∈ catalogue)
    : shape.IsAbsent s := by
  induction hlength : s.length using Nat.strongRecOn generalizing s shape with
  | ind length ih =>
    cases s with
    | nil => exact shape.isAbsent_nil hshape
    | cons c cs =>
      cases hfind : password.find? (redactShapes tokenShapes (c :: cs)) with
      | none =>
        have hcs := fixed_tail hs hfind
        have hshorter : cs.length < length := by
          rw [← hlength]
          exact Nat.lt_succ_self _
        have habsent : ∀ shape ∈ catalogue, shape.IsAbsent cs := fun shape hshape =>
          ih cs.length hshorter hcs hshape rfl
        exact isAbsent_cons_of_fixed hs hfind habsent hshape
      | some result =>
        obtain ⟨y, hmark, hy, hfound⟩ := fixed_behind_mark hs hfind
        have hshorter : y.length < length := by
          have hpos : 0 < password.mark.length := by decide +kernel
          rw [← hlength, hmark, List.length_append]
          omega
        have habsent : ∀ shape ∈ catalogue, shape.IsAbsent y := fun shape hshape =>
          ih y.length hshorter hy hshape rfl
        rw [redactShapes_of_isAbsent (fun shape => mem_of_mem_tokenShapes) fun shape hshape =>
          habsent shape (mem_of_mem_tokenShapes hshape)] at hfound
        rw [hmark]
        exact isAbsent_mark_of_fixed hfound (habsent shape hshape) hshape

/--
A text stays as it is exactly if it shows no credential. A credential that is found is replaced, even where
the marks of those before it change what there is to be found.
-/
theorem redactChars_eq_self_iff {s : List Char}
    : redactChars s = s ↔ ∀ shape ∈ catalogue, shape.IsAbsent s := by
  constructor
  . exact fun hs shape hshape => isAbsent_of_fixed hs hshape
  . intro habsent
    rw [redactChars_eq_redactShapes]
    exact redactShapes_of_isAbsent (fun shape hshape => hshape) habsent

end Fixed

theorem redact_ne_iff {text : String}
    : redact text ≠ text ↔ ∃ shape ∈ catalogue, ∃ word, shape.Shows word text.toList := by
  have htext : redact text = text ↔ redactChars text.toList = text.toList := by
    unfold redact
    rw [← String.toList_inj, String.toList_ofList]
  rw [ne_eq, htext, redactChars_eq_self_iff]
  simp [Shape.IsAbsent]

end Runbook.Credential
