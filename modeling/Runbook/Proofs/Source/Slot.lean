import Runbook.Proofs.Position
import Runbook.Source.Line

/-!
This module contains the place that a value has on its line. A line is ignored, or it is complete in
itself, or it is a form around one value; only in reading that value the lines below are looked at,
and the number of a line only marks what is reported.
-/

namespace Runbook.Source

open Text

/-- A problem before it is known on which line it stands. -/
structure Remark where
  severity : Severity
  column : Nat
  message : String
  hint : String

def Site.report (site : Site) (remark : Remark) : Diagnostic :=
  match remark.severity with
  | .error => site.error remark.column remark.message remark.hint
  | .warning => site.warning remark.column remark.message remark.hint

section Report

variable (site : Site) (remark : Remark)

@[simp]
theorem Site.report_severity : (site.report remark).severity = remark.severity := by
  unfold report
  cases remark.severity <;> simp [error, warning]

@[simp]
theorem Site.report_line : (site.report remark).line = max 1 site.number := by
  unfold report
  cases remark.severity <;> simp [error, warning]

@[simp]
theorem Site.report_column : (site.report remark).column = remark.column + 1 := by
  unfold report
  cases remark.severity <;> simp [error, warning]

@[simp]
theorem Site.report_message : (site.report remark).message = remark.message := by
  unfold report
  cases remark.severity <;>
    simp [error, warning, Diagnostic.error, Diagnostic.warning, Diagnostic.withSuggestion]

end Report

def Remark.IsIgnoring (remark : Remark) : Prop :=
  remark.severity = .warning ∧ "Ignoring".toList <+: remark.message.toList

theorem isIgnoring_of_begins {what : String} (h : "Ignoring".toList <+: what.toList)
    (column : Nat) (dropped hint : String)
    : Remark.IsIgnoring ⟨.warning, column, what ++ dropped ++ "'", hint⟩ := by
  refine ⟨rfl, ?_⟩
  rw [String.toList_append, String.toList_append]
  exact List.prefix_append_of_prefix (List.prefix_append_of_prefix h)

/-- The place of a value on its line, and what the line is around it. -/
structure Slot where
  /-- The indentation that the lines of a block have to exceed. -/
  owner : Nat
  /-- The blanks between the colon of a key and the value; none if there is no key. -/
  gap : List Char
  /-- The line from the first character of the value on. -/
  text : List Char
  fill : Scalar → Token

/-- The column that the value of a line is reported at; the gap before it counts by its bytes. -/
def Slot.column (slot : Slot) (raw : List Char) : Nat :=
  raw.length - (slot.gap ++ slot.text).length + byteSize slot.gap

/-- The place of the value in an entry at the indentation `indent`, if it has one. -/
def keyedSlot? (fill : String → Option Scalar → Token) (content : List Char) (indent : Nat)
    : Option Slot :=
  (splitKey? content).bind fun (key, tail) =>
    let text := trimStart tail
    if (stripComment text).isEmpty then
      none
    else
      some ⟨indent, tail.takeWhile isBlank, text, fun value => fill (String.ofList key) (some value)⟩

/-- The place of the value behind a dash, where what follows the dash starts at `column`. -/
def itemSlot? (body : List Char) (column : Nat) : Option Slot :=
  if (stripComment body).isEmpty then
    none
  else if (splitKey? body).isSome then
    keyedSlot? (fun key value => .item column (.entry key value)) body column
  else
    some ⟨column, [], body, fun value => .item column (.scalar value)⟩

def isStep (content : List Char) : Bool :=
  (afterStepWord? content).any fun rest =>
    let rest := rest.dropWhile isGap
    !(rest.takeWhile isKeyChar).isEmpty &&
      ((rest.dropWhile isKeyChar).dropWhile isGap).head? == some ':'

def contentSlot? (content : List Char) (indent : Nat) : Option Slot :=
  if content.head? = some '@' then
    none
  else
    match afterDash? content with
    | some rest =>
      let body := trimStart rest
      itemSlot? body (indent + (content.length - body.length))
    | none => if isStep content then none else keyedSlot? Token.entry content indent

/-- The place of the value on a line, if the line has one. -/
def slot? (raw : List Char) : Option Slot :=
  let content := trimStart raw
  if content.isEmpty || content.head? = some '#' then
    none
  else
    contentSlot? content (leadingBlanks raw)

theorem closeQuote?_split {quote : Char} {s t r : List Char} (h : closeQuote? quote s = some (t, r))
    : ∃ w, s = w ++ r ∧ ∀ rest, closeQuote? quote (w ++ rest) = some (t, rest) := by
  fun_induction closeQuote? quote s generalizing t r with
  | case1 => cases h
  | case2 cs =>
    cases h
    refine ⟨[quote], rfl, ?_⟩
    intro rest
    unfold closeQuote?
    exact if_pos rfl
  | case3 => cases h
  | case4 e cs hne ih =>
    obtain ⟨⟨u, v⟩, hu, hv⟩ := Option.map_eq_some_iff.mp h
    cases hv
    obtain ⟨w, rfl, hw⟩ := ih hu
    refine ⟨'\\' :: e :: w, rfl, ?_⟩
    intro rest
    rw [List.cons_append, List.cons_append, closeQuote?, if_neg hne, if_pos rfl, hw]
    rfl
  | case5 c cs hne hesc ih =>
    obtain ⟨⟨u, v⟩, hu, hv⟩ := Option.map_eq_some_iff.mp h
    cases hv
    obtain ⟨w, rfl, hw⟩ := ih hu
    refine ⟨c :: w, rfl, ?_⟩
    intro rest
    unfold closeQuote?
    rw [List.cons_append]
    dsimp only
    rw [if_neg hne, if_neg hesc, hw]
    rfl

theorem closeQuote?_suffix {quote : Char} {s t r : List Char}
    (h : closeQuote? quote s = some (t, r))
    : r <:+ s := by
  obtain ⟨w, hw, _⟩ := closeQuote?_split h
  exact ⟨w, hw.symm⟩

theorem readKey?_suffix {s key rest : List Char} (h : readKey? s = some (key, rest))
    : rest <:+ s := by
  revert h
  unfold readKey?
  split
  . intro h
    exact (closeQuote?_suffix h).trans (List.suffix_cons _ _)
  . intro h
    exact (closeQuote?_suffix h).trans (List.suffix_cons _ _)
  . intro h
    cases h
    exact List.dropWhile_suffix _

theorem eq_colon_cons {s tail : List Char} (h : afterColon? s = some tail) : s = ':' :: tail := by
  unfold afterColon? at h
  split at h
  . cases h
    rfl
  . split at h
    . cases h
      rfl
    . cases h
  . cases h

theorem splitKey?_suffix {content key tail : List Char} (h : splitKey? content = some (key, tail))
    : tail <:+ content := by
  revert h
  unfold splitKey?
  split
  . next name rest hkey =>
    split
    . intro h
      cases h
    . intro h
      obtain ⟨after, hafter, hpair⟩ := Option.map_eq_some_iff.mp h
      cases hpair
      have hcolon := (List.suffix_cons ':' _).trans
        (eq_colon_cons hafter ▸ List.dropWhile_suffix isGap)
      exact hcolon.trans (readKey?_suffix hkey)
  . intro h
    cases h

theorem keyedSlot?_eq_some {fill : String → Option Scalar → Token} {content : List Char}
    {indent : Nat} {slot : Slot} (h : keyedSlot? fill content indent = some slot)
    : ∃ key tail, splitKey? content = some (key, tail) ∧ slot.gap ++ slot.text = tail ∧
        (stripComment (trimStart tail)).isEmpty = false ∧
        slot = ⟨indent, tail.takeWhile isBlank, trimStart tail,
          fun value => fill (String.ofList key) (some value)⟩ := by
  obtain ⟨⟨key, tail⟩, hkey, hslot⟩ := Option.bind_eq_some_iff.mp h
  dsimp only at hslot
  split at hslot
  . cases hslot
  . next hvalue =>
    cases hslot
    refine ⟨key, tail, hkey, List.takeWhile_append_dropWhile, ?_, rfl⟩
    simpa using hvalue

theorem keyedSlot?_suffix {fill : String → Option Scalar → Token} {content : List Char}
    {indent : Nat} {slot : Slot} (h : keyedSlot? fill content indent = some slot)
    : slot.gap ++ slot.text <:+ content := by
  obtain ⟨key, tail, hkey, htail, _, _⟩ := keyedSlot?_eq_some h
  rw [htail]
  exact splitKey?_suffix hkey

theorem readKeyed?_of_slot {fill : String → Option Scalar → Token} {content : List Char}
    {indent : Nat} {slot : Slot} (h : keyedSlot? fill content indent = some slot)
    : ∃ key, slot.fill = (fun value => fill key (some value)) ∧
        ∀ site following,
          let column := indent + (content.length - (slot.gap ++ slot.text).length)
            + byteSize slot.gap
          let value := readValue site following slot.text column slot.owner
          readKeyed? site following content indent
            =
          some ⟨⟨(key, some value.value.value), value.value.lines⟩, value.notes⟩ := by
  obtain ⟨key, tail, hkey, htail, hvalue, rfl⟩ := keyedSlot?_eq_some h
  refine ⟨String.ofList key, rfl, ?_⟩
  intro site following
  unfold readKeyed?
  rw [hkey, htail, Option.map_some]
  dsimp only
  rw [hvalue]
  simp [bind, pure]

theorem readKeyed?_of_no_slot {fill : String → Option Scalar → Token} {content : List Char}
    {indent : Nat} (h : keyedSlot? fill content indent = none)
    : (splitKey? content = none ∧ ∀ site following, readKeyed? site following content indent = none) ∨
      ∃ key, ∀ site following,
        readKeyed? site following content indent = some ⟨⟨(key, none), 0⟩, []⟩ := by
  unfold keyedSlot? at h
  unfold readKeyed?
  cases hkey : splitKey? content with
  | none => exact .inl ⟨rfl, fun _ _ => rfl⟩
  | some split =>
    obtain ⟨key, tail⟩ := split
    rw [hkey, Option.bind_some] at h
    dsimp only at h
    split at h
    . next hempty =>
      refine .inr ⟨String.ofList key, ?_⟩
      intro site following
      rw [Option.map_some]
      dsimp only
      rw [hempty]
      rfl
    . cases h

theorem readItem_of_slot {body : List Char} {column : Nat} {slot : Slot}
    (h : itemSlot? body column = some slot)
    : slot.gap ++ slot.text <:+ body ∧
      ∃ make : Scalar → ItemBody, slot.fill = (fun value => .item column (make value)) ∧
        ∀ site following,
          let start := column + (body.length - (slot.gap ++ slot.text).length) + byteSize slot.gap
          let value := readValue site following slot.text start slot.owner
          readItem site following body column
            =
          ⟨⟨make value.value.value, value.value.lines⟩, value.notes⟩ := by
  unfold itemSlot? at h
  unfold readItem
  split at h
  . cases h
  . next hbody =>
    split at h
    . obtain ⟨key, hfill, hread⟩ := readKeyed?_of_slot h
      refine ⟨keyedSlot?_suffix h, fun value => .entry key (some value), hfill, ?_⟩
      intro site following
      rw [if_neg hbody, hread]
      simp [bind, pure]
    . next hkey =>
      cases h
      have hnone (site : Site) (following : RawLines)
          : readKeyed? site following body column = none := by
        unfold readKeyed?
        rw [Option.not_isSome_iff_eq_none.mp hkey]
        rfl
      refine ⟨List.suffix_refl body, .scalar, rfl, ?_⟩
      intro site following
      rw [if_neg hbody, hnone]
      simp [bind, pure, byteSize]

theorem readItem_of_no_slot {body : List Char} {column : Nat} (h : itemSlot? body column = none)
    : ∃ item, ∀ site following, readItem site following body column = ⟨⟨item, 0⟩, []⟩ := by
  unfold itemSlot? at h
  unfold readItem
  split at h
  . next hbody =>
    refine ⟨.empty, ?_⟩
    intro site following
    rw [if_pos hbody]
    rfl
  . next hbody =>
    split at h
    . next hkey =>
      obtain ⟨hnone, _⟩ | ⟨key, hread⟩ := readKeyed?_of_no_slot h
      . rw [hnone] at hkey
        cases hkey
      . refine ⟨.entry key none, ?_⟩
        intro site following
        rw [if_neg hbody, hread]
        rfl
    . cases h

theorem readStep?_of_not_isStep {content : List Char} (h : isStep content = false) (site : Site)
    (indent : Nat)
    : readStep? site content indent = none := by
  unfold isStep at h
  unfold readStep?
  cases hafter : afterStepWord? content with
  | none => rfl
  | some rest =>
    rw [hafter, Option.any_some] at h
    rw [Option.bind_some]
    dsimp only at h ⊢
    split
    . next tail heq =>
      rw [heq] at h
      rw [if_pos (by simpa using h)]
    . rfl

theorem readStep?_of_isStep {content : List Char} (h : isStep content) (indent : Nat)
    : ∃ (token : Token) (remarks : List Remark), (∀ remark ∈ remarks, remark.IsIgnoring) ∧
        ∀ site, readStep? site content indent = some ⟨token, remarks.map (Site.report site)⟩ := by
  unfold isStep at h
  unfold readStep?
  cases hafter : afterStepWord? content with
  | none =>
    rw [hafter] at h
    cases h
  | some rest =>
    rw [hafter, Option.any_some] at h
    simp only [Option.bind_some]
    dsimp only at h
    split
    . next tail heq =>
      rw [heq] at h
      have hid : (rest.dropWhile isGap |>.takeWhile isKeyChar).isEmpty = false := by
        simpa using h
      simp only [hid, Bool.false_eq_true, if_false]
      split
      . exact ⟨_, [], List.forall_mem_nil _, fun _ => rfl⟩
      . refine ⟨_, [⟨.warning, indent, _, _⟩], ?_, fun _ => rfl⟩
        rw [List.forall_mem_singleton]
        exact isIgnoring_of_begins (by decide) _ _ _
    . next hcolon =>
      rw [Bool.and_eq_true, beq_iff_eq, List.head?_eq_some_iff] at h
      obtain ⟨tail, htail⟩ := h.2
      exact absurd htail (hcolon tail)

theorem eq_dash_cons {content rest : List Char} (h : afterDash? content = some rest)
    : content = '-' :: rest := by
  unfold afterDash? at h
  split at h
  . cases h
    rfl
  . split at h
    . cases h
      rfl
    . cases h
  . cases h

theorem readToken_of_slot {content : List Char} {indent : Nat} {slot : Slot}
    (h : contentSlot? content indent = some slot) (site : Site) (following : RawLines)
    : slot.gap ++ slot.text <:+ content ∧
      let value := readValue site following slot.text
        (indent + (content.length - (slot.gap ++ slot.text).length) + byteSize slot.gap) slot.owner
      readToken site following content indent
        =
      ⟨⟨slot.fill value.value.value, value.value.lines⟩, value.notes⟩ := by
  unfold contentSlot? at h
  unfold readToken
  split at h
  . cases h
  . next hat =>
    split
    . exact absurd rfl hat
    . cases hdash : afterDash? content with
      | some rest =>
        rw [hdash] at h
        have hbody : trimStart rest <:+ content := by
          rw [eq_dash_cons hdash]
          exact (List.dropWhile_suffix _).trans (List.suffix_cons '-' rest)
        obtain ⟨hsuffix, make, hfill, hread⟩ := readItem_of_slot h
        have hcolumn : indent + (content.length - (trimStart rest).length)
              + ((trimStart rest).length - (slot.gap ++ slot.text).length)
            = indent + (content.length - (slot.gap ++ slot.text).length) := by
          have := hbody.length_le
          have := hsuffix.length_le
          omega
        refine ⟨hsuffix.trans hbody, ?_⟩
        dsimp only
        rw [hread, hfill, hcolumn]
        simp [bind, pure]
      | none =>
        rw [hdash] at h
        dsimp only at h
        split at h
        . cases h
        . next hstep =>
          obtain ⟨key, hfill, hread⟩ := readKeyed?_of_slot h
          refine ⟨keyedSlot?_suffix h, ?_⟩
          dsimp only
          rw [readStep?_of_not_isStep (by simpa using hstep), hread, hfill]
          simp [bind, pure]

theorem readToken_of_no_slot {content : List Char} {indent : Nat}
    (h : contentSlot? content indent = none)
    : ∃ (token : Token) (remarks : List Remark), (∀ remark ∈ remarks, remark.IsIgnoring) ∧
        ∀ site following,
          readToken site following content indent
            =
          ⟨⟨token, 0⟩, remarks.map (Site.report site)⟩ := by
  unfold contentSlot? at h
  unfold readToken
  split
  . next rest =>
    split
    . next hwords => exact ⟨.directive "" [], [], List.forall_mem_nil _, fun _ _ => rfl⟩
    . next name args hwords => exact ⟨.directive name args, [], List.forall_mem_nil _, fun _ _ => rfl⟩
  . next hat =>
    rw [if_neg (by simpa [List.head?_eq_some_iff] using hat)] at h
    cases hdash : afterDash? content with
    | some rest =>
      rw [hdash] at h
      obtain ⟨item, hread⟩ := readItem_of_no_slot h
      refine ⟨.item (indent + (content.length - (trimStart rest).length)) item, [],
        List.forall_mem_nil _, ?_⟩
      intro site following
      dsimp only
      rw [hread]
      rfl
    | none =>
      rw [hdash] at h
      dsimp only at h ⊢
      cases hstep : isStep content with
      | true =>
        obtain ⟨token, remarks, hremarks, hread⟩ := readStep?_of_isStep hstep indent
        refine ⟨token, remarks, hremarks, ?_⟩
        intro site following
        rw [hread]
        simp [bind, pure]
      | false =>
        have hnone := readStep?_of_not_isStep hstep
        rw [hstep, if_neg Bool.false_ne_true] at h
        obtain ⟨_, hread⟩ | ⟨key, hread⟩ := readKeyed?_of_no_slot h
        . refine ⟨.text (String.ofList (stripComment content)), [], List.forall_mem_nil _, ?_⟩
          intro site following
          rw [hnone, hread]
          rfl
        . refine ⟨.entry key none, [], List.forall_mem_nil _, ?_⟩
          intro site following
          rw [hnone, hread]
          rfl

/-- The indentation of a line. -/
def leading (raw : List Char) : List Char :=
  raw.takeWhile isBlank

/-- What a line is read as, wherever it stands. -/
inductive LineForm (raw : List Char) : Prop where
  /-- A blank line or a comment. -/
  | ignored (hslot : slot? raw = none)
      (h : ∀ number following, readLine number raw following = ⟨⟨none, 0⟩, []⟩)
  /-- A line without a value. -/
  | bare (hslot : slot? raw = none) (token : Token) (remarks : List Remark)
      (hremarks : ∀ remark ∈ remarks, remark.IsIgnoring)
      (h : ∀ number following,
        let site : Site := ⟨number, raw⟩
        readLine number raw following
          =
        ⟨⟨some ⟨number, leadingBlanks raw, token, String.ofList raw⟩, 0⟩,
          tabNotes site (leading raw) ++ remarks.map site.report⟩)
  | valued (slot : Slot) (hslot : slot? raw = some slot)
      (hsuffix : slot.gap ++ slot.text <:+ raw)
      (h : ∀ number following,
        let site : Site := ⟨number, raw⟩
        let value := readValue site following slot.text (slot.column raw) slot.owner
        readLine number raw following
          =
        ⟨⟨some ⟨number, leadingBlanks raw, slot.fill value.value.value, String.ofList raw⟩,
            value.value.lines⟩,
          tabNotes site (leading raw) ++ value.notes⟩)

theorem trimStart_suffix (raw : List Char) : trimStart raw <:+ raw :=
  List.dropWhile_suffix _

theorem leading_append_trimStart (raw : List Char) : leading raw ++ trimStart raw = raw :=
  List.takeWhile_append_dropWhile

theorem lineForm (raw : List Char) : LineForm raw := by
  cases hignored : (trimStart raw).isEmpty || (trimStart raw).head? = some '#' with
  | true =>
    apply LineForm.ignored
    . unfold slot?
      dsimp only
      rw [if_pos hignored]
    . intro number following
      unfold readLine
      dsimp only
      rw [if_pos hignored]
      rfl
  | false =>
    have hread (number : Nat) (following : RawLines)
        : readLine number raw following
            =
          let token := readToken ⟨number, raw⟩ following (trimStart raw) (leadingBlanks raw)
          ⟨⟨some ⟨number, leadingBlanks raw, token.value.value, String.ofList raw⟩,
              token.value.lines⟩,
            tabNotes ⟨number, raw⟩ (leading raw) ++ token.notes⟩ := by
      unfold readLine
      dsimp only
      rw [if_neg (by simpa using hignored)]
      simp [bind, pure, Noted.noteAll, leading, leadingBlanks]
    have hslot : slot? raw = contentSlot? (trimStart raw) (leadingBlanks raw) := by
      unfold slot?
      dsimp only
      rw [if_neg (by simpa using hignored)]
    cases hcontent : contentSlot? (trimStart raw) (leadingBlanks raw) with
    | none =>
      obtain ⟨token, remarks, hremarks, htoken⟩ := readToken_of_no_slot hcontent
      apply LineForm.bare (hslot.trans hcontent) token remarks hremarks
      intro number following
      rw [hread, htoken]
    | some slot =>
      have htoken := readToken_of_slot hcontent
      have hsuffix := (htoken ⟨0, raw⟩ []).1
      have hcolumn : leadingBlanks raw
            + ((trimStart raw).length - (slot.gap ++ slot.text).length)
            + byteSize slot.gap
          = slot.column raw := by
        have hlength := congrArg List.length (leading_append_trimStart raw)
        have := hsuffix.length_le
        rw [List.length_append] at hlength
        unfold Slot.column
        have : leadingBlanks raw = (leading raw).length := rfl
        omega
      apply LineForm.valued slot (hslot.trans hcontent) (hsuffix.trans (trimStart_suffix raw))
      intro number following
      rw [hread, (htoken _ _).2, hcolumn]

/-- A reading that can be moved to another line, since the line only marks its problems. -/
def Movable {α : Type} (read : Site → Noted α) : Prop :=
  ∃ (value : α) (remarks : List Remark), ∀ site, read site = ⟨value, remarks.map (Site.report site)⟩

namespace Movable

variable {α β : Type}

theorem const (value : α) : Movable fun _ => ⟨value, []⟩ :=
  ⟨value, [], fun _ => rfl⟩

theorem bind {read : Site → Noted α} (h : Movable read) (f : α → β)
    : Movable fun site => do return f (← read site) := by
  obtain ⟨value, remarks, hread⟩ := h
  refine ⟨f value, remarks, ?_⟩
  intro site
  simp [hread, Bind.bind, pure]

end Movable

theorem quotedValue_movable (column : Nat) (quote : Char) (text : List Char)
    : Movable fun site => quotedValue site column quote text := by
  unfold quotedValue
  split
  . dsimp only
    split
    . exact .const _
    . exact ⟨_, [⟨.warning, column, _, _⟩], fun _ => rfl⟩
  . exact ⟨_, [⟨.error, column, _, _⟩], fun _ => rfl⟩

theorem listValue_movable (column : Nat) (text : List Char)
    : Movable fun site => listValue site column text := by
  unfold listValue
  dsimp only
  split
  . exact .const _
  . exact ⟨_, [⟨.error, column, _, _⟩], fun _ => rfl⟩
  . exact ⟨_, [⟨.error, column, _, _⟩], fun _ => rfl⟩

theorem readValue_movable (following : RawLines) (text : List Char) (column owner : Nat)
    : Movable fun site => readValue site following text column owner := by
  unfold readValue
  dsimp only
  split
  . exact .const _
  . split
    . exact (quotedValue_movable column '"' _).bind _
    . exact (quotedValue_movable column '\'' _).bind _
    . exact (listValue_movable column _).bind _
    . exact .const _

theorem tabNotes_movable (leading : List Char)
    : Movable fun site => Noted.noteAll (tabNotes site leading) := by
  unfold tabNotes
  split
  . exact ⟨(), [⟨.error, _, _, _⟩], fun _ => rfl⟩
  . exact .const _

theorem readLine_eq (raw : List Char) (following : RawLines)
    : ∃ (token : Option Token) (lines : Nat) (remarks : List Remark), ∀ number,
        readLine number raw following
          =
        ⟨⟨token.map (⟨number, leadingBlanks raw, ·, String.ofList raw⟩), lines⟩,
          remarks.map (Site.report ⟨number, raw⟩)⟩ := by
  obtain ⟨_, tabs, htabs⟩ := tabNotes_movable (leading raw)
  have htabs (site : Site) : tabNotes site (leading raw) = tabs.map site.report :=
    congrArg Noted.notes (htabs site)
  cases lineForm raw with
  | ignored _ h => exact ⟨none, 0, [], fun number => h number following⟩
  | bare _ token remarks _ h =>
    refine ⟨some token, 0, tabs ++ remarks, ?_⟩
    intro number
    rw [h, htabs, List.map_append]
    rfl
  | valued slot _ _ h =>
    obtain ⟨value, remarks, hvalue⟩ := readValue_movable following slot.text (slot.column raw)
      slot.owner
    have hvalue (site : Site)
        : readValue site following slot.text (slot.column raw) slot.owner
            =
          ⟨value, remarks.map site.report⟩ := hvalue site
    refine ⟨some (slot.fill value.value), value.lines, tabs ++ remarks, ?_⟩
    intro number
    rw [h, hvalue, htabs, List.map_append]
    rfl

theorem readLine_of_slot? {raw : List Char} {slot : Slot} (h : slot? raw = some slot)
    (number : Nat) (following : RawLines)
    : let site : Site := ⟨number, raw⟩
      let value := readValue site following slot.text (slot.column raw) slot.owner
      readLine number raw following
        =
      ⟨⟨some ⟨number, leadingBlanks raw, slot.fill value.value.value, String.ofList raw⟩,
          value.value.lines⟩,
        tabNotes site (leading raw) ++ value.notes⟩ := by
  cases lineForm raw with
  | ignored hslot _ => rw [hslot] at h; cases h
  | bare hslot _ _ _ _ => rw [hslot] at h; cases h
  | valued other hslot _ hread =>
    rw [hslot] at h
    cases h
    exact hread number following

/-- What a line takes of the lines below it. -/
inductive BlockUse (raw : List Char) : Prop where
  | closed (h : ∀ number following, (readLine number raw following).value.lines = 0 ∧
      readLine number raw following = readLine number raw [])
  /-- A line that opens a block is read from the body of the block. -/
  | opens (owner : Nat) (h : ∀ number following other,
      blockBody owner following = blockBody owner other →
        readLine number raw following
          =
        ⟨⟨(readLine number raw other).value.value, (following.takeWhile (inBlock owner)).length⟩,
          (readLine number raw other).notes⟩)

theorem blockText_congr {owner : Nat} {following other : RawLines}
    (h : blockBody owner following = blockBody owner other) (keepEnd : Bool)
    : blockText keepEnd owner following = blockText keepEnd owner other := by
  unfold blockText
  rw [h]

theorem blockUse (raw : List Char) : BlockUse raw := by
  cases lineForm raw with
  | ignored _ h =>
    apply BlockUse.closed
    intro number following
    rw [h, h]
    exact ⟨rfl, rfl⟩
  | bare _ token remarks _ h =>
    apply BlockUse.closed
    intro number following
    rw [h, h]
    exact ⟨rfl, rfl⟩
  | valued slot _ _ h =>
    by_cases hblock : stripComment slot.text = ['|'] ∨ stripComment slot.text = ['|', '-']
    . have hvalue (site : Site) (following : RawLines)
          : readValue site following slot.text (slot.column raw) slot.owner
              =
            ⟨⟨.block (String.ofList (blockText (stripComment slot.text = ['|']) slot.owner following)),
              (following.takeWhile (inBlock slot.owner)).length⟩, []⟩ := by
        unfold readValue
        dsimp only
        rw [if_pos hblock]
        rfl
      apply BlockUse.opens slot.owner
      intro number following other hbody
      rw [h, h, hvalue, hvalue, blockText_congr hbody]
    . have hvalue (site : Site) (following : RawLines)
          : readValue site following slot.text (slot.column raw) slot.owner
              =
            readValue site [] slot.text (slot.column raw) slot.owner ∧
            (readValue site [] slot.text (slot.column raw) slot.owner).value.lines = 0 := by
        unfold readValue
        dsimp only
        rw [if_neg hblock, if_neg hblock]
        refine ⟨rfl, ?_⟩
        split <;> rfl
      apply BlockUse.closed
      intro number following
      rw [h, h, (hvalue _ following).1]
      exact ⟨(hvalue _ []).2, rfl⟩

end Runbook.Source
