import Mathlib.Data.List.Sort
import Mathlib.Data.Prod.Lex
import Mathlib.Data.String.Basic
import Mathlib.Order.WithBot
import Runbook.Capability
import Runbook.Proofs.Source.Words

/-!
This module contains what a registry holds after any calls that changed it: under each key the
capability that was registered last, unless it was unregistered since. Kinds and providers may be
written in any case and with blanks around them.
-/

namespace Runbook

open Capability

namespace Capability.Key

open Text

/-- A name as it may be written: in capitals and in small letters, with blanks around it. -/
def Spells (text name : String) : Prop :=
  ∃ before word behind, text.toList = before ++ word ++ behind ∧
    (∀ c ∈ before, isBlank c) ∧ (∀ c ∈ behind, isBlank c) ∧
    (∀ c ∈ word.head?, isBlank c = false) ∧ (∀ c ∈ word.getLast?, isBlank c = false) ∧
    name.toList = word.map Char.toLower

/-- A kind and a provider as they may be written; a blank provider is as good as none. -/
def IsSpelled (key : Key) (kind : String) (provider : Option String) : Prop :=
  Spells kind key.kind ∧
    match provider, key.provider with
    | some text, some name => name ≠ "" ∧ Spells text name
    | some text, none => ∀ c ∈ text.toList, isBlank c
    | none, some _ => False
    | none, none => True

theorem spells_normalize (text : String) : Spells text (normalize text) := by
  obtain ⟨before, behind, htext, hbefore, hbehind⟩ := Source.exists_blanks_trim text.toList
  exact ⟨before, trim text.toList, behind, htext, hbefore, hbehind,
    Source.not_isBlank_head_trim _, Source.not_isBlank_last_trim _, String.toList_ofList⟩

theorem normalize_eq_iff {text name : String} : normalize text = name ↔ Spells text name := by
  constructor
  . rintro rfl
    exact spells_normalize text
  . rintro ⟨before, word, behind, htext, hbefore, hbehind, hfirst, hlast, hname⟩
    unfold normalize
    rw [htext, Source.trim_append_blanks hbehind, Source.trim_blanks_append hbefore,
      Source.trim_eq_self hfirst hlast, ← hname, String.ofList_toList]

theorem normalize_eq_empty_iff {text : String}
    : normalize text = "" ↔ ∀ c ∈ text.toList, isBlank c := by
  rw [normalize_eq_iff]
  constructor
  . rintro ⟨before, word, behind, htext, hbefore, hbehind, _, _, hname⟩
    have hword : word = [] := List.map_eq_nil_iff.mp hname.symm
    rw [htext, hword, List.append_nil, List.forall_mem_append]
    exact ⟨hbefore, hbehind⟩
  . intro hblank
    exact ⟨text.toList, [], [], by simp, hblank, List.forall_mem_nil _, nofun, nofun, rfl⟩

theorem of_eq_iff {kind : String} {provider : Option String} {key : Key}
    : of kind provider = key ↔ key.IsSpelled kind provider := by
  obtain ⟨name, held⟩ := key
  unfold of IsSpelled
  rw [mk.injEq, normalize_eq_iff]
  apply and_congr_right'
  cases provider with
  | none => cases held <;> simp
  | some text =>
    cases held with
    | none =>
      dsimp only
      rw [← normalize_eq_empty_iff]
      simp
    | some held =>
      dsimp only
      rw [← normalize_eq_iff, Option.map_some, Option.filter_eq_some_iff, Option.some_inj, and_comm]
      apply and_congr_left'
      simp

/-- The place of a key: by its kind, then by its provider, with the default of a kind first. -/
def rank (key : Key) : String ×ₗ WithBot String :=
  toLex (key.kind, match key.provider with
    | some provider => (provider : WithBot String)
    | none => ⊥)

theorem rank_injective : Function.Injective rank := by
  rintro ⟨kind, provider⟩ ⟨kind', provider'⟩ h
  obtain ⟨rfl, hprovider⟩ := Prod.mk.inj (toLex_inj.mp h)
  cases provider <;> cases provider' <;> simp_all

theorem notAfter_iff (a b : Key) : a.notAfter b = true ↔ a.rank ≤ b.rank := by
  unfold notAfter rank
  rw [Prod.Lex.toLex_le_toLex, Bool.or_eq_true, Bool.and_eq_true, decide_eq_true_eq,
    decide_eq_true_eq]
  apply or_congr_right
  apply and_congr_right'
  cases a.provider <;> cases b.provider <;> simp

end Capability.Key

namespace Registry

/-- A call that changes a registry. -/
inductive Change where
  | register (kind : String) (provider : Option String) (capability : Capability)
  | unregister (kind : String) (provider : Option String)

namespace Change

def key : Change → Key
  | register kind provider _ => Key.of kind provider
  | unregister kind provider => Key.of kind provider

def registers : Change → Bool
  | register _ _ _ => true
  | unregister _ _ => false

def backend? (number : Nat) : Change → Option Backend
  | register _ _ capability => some ⟨number, capability⟩
  | unregister _ _ => none

end Change

def apply (registry : Registry) : Change → Registry
  | .register kind provider capability => registry.register kind provider capability
  | .unregister kind provider => registry.unregister kind provider

/-- A registry that was empty before some calls. -/
def after (changes : List Change) : Registry :=
  changes.foldl apply {}

/--
A capability is live under a key if it is the last one that was registered under it, and none was
unregistered since. Its number is the number of capabilities registered before.
-/
def IsLive (changes : List Change) (key : Key) (backend : Backend) : Prop :=
  ∃ before kind provider behind,
    changes = before ++ .register kind provider backend.capability :: behind ∧
    Key.of kind provider = key ∧
    backend.number = before.countP Change.registers ∧
    ∀ change ∈ behind, change.key ≠ key

variable {changes : List Change} {change : Change} {key : Key} {backend : Backend}

theorem after_append (changes : List Change) (change : Change)
    : after (changes ++ [change]) = (after changes).apply change :=
  List.foldl_append

theorem not_isLive_nil : ¬ IsLive [] key backend := by
  rintro ⟨before, kind, provider, behind, hchanges, _⟩
  exact List.append_ne_nil_of_right_ne_nil before (List.cons_ne_nil _ _) hchanges.symm

theorem isLive_append_iff
    : IsLive (changes ++ [change]) key backend
        ↔
      change.key = key ∧ change.backend? (changes.countP Change.registers) = some backend ∨
      change.key ≠ key ∧ IsLive changes key backend := by
  constructor
  . rintro ⟨before, kind, provider, behind, hchanges, hkey, hnumber, hbehind⟩
    obtain rfl | ⟨behind, last, rfl⟩ := behind.eq_nil_or_concat
    . obtain ⟨rfl, rfl⟩ := List.append_singleton_inj.mp hchanges
      rw [← hnumber]
      exact .inl ⟨hkey, rfl⟩
    . rw [List.concat_eq_append, ← List.cons_append, ← List.append_assoc] at hchanges
      obtain ⟨rfl, rfl⟩ := List.append_singleton_inj.mp hchanges
      rw [List.concat_eq_append, List.forall_mem_append] at hbehind
      right
      exact ⟨hbehind.2 change (List.mem_singleton_self change),
        before, kind, provider, behind, rfl, hkey, hnumber, hbehind.1⟩
  . rintro (⟨hkey, hbackend⟩ |
      ⟨hne, before, kind, provider, behind, rfl, hkey, hnumber, hbehind⟩)
    . cases change with
      | register kind provider capability =>
        cases hbackend
        exact ⟨changes, kind, provider, [], rfl, hkey, rfl, List.forall_mem_nil _⟩
      | unregister kind provider => cases hbackend
    . refine ⟨before, kind, provider, behind ++ [change], ?_, hkey, hnumber, ?_⟩
      . rw [List.append_assoc, List.cons_append]
      . rw [List.forall_mem_append]
        exact ⟨hbehind, List.forall_mem_singleton.mpr hne⟩

theorem lookup_filter (entries : List (Key × Backend)) (dropped key : Key)
    : (entries.filter (·.1 ≠ dropped)).lookup key
        =
      if dropped = key then none else entries.lookup key := by
  induction entries with
  | nil => exact (ite_self _).symm
  | cons entry rest ih =>
    obtain ⟨name, backend⟩ := entry
    by_cases hname : name = dropped
    . rw [List.filter_cons_of_neg (by simp [hname]), ih, hname]
      split
      . rfl
      . next hkey => rw [List.lookup_cons, beq_false_of_ne (Ne.symm hkey)]
    . rw [List.filter_cons_of_pos (by simp [hname]), List.lookup_cons, List.lookup_cons, ih]
      split
      . next heq =>
        rw [if_neg]
        rw [eq_of_beq heq]
        exact Ne.symm hname
      . rfl

theorem find?_apply (registry : Registry) (change : Change) (key : Key)
    : (registry.apply change).find? key
        =
      if change.key = key then change.backend? registry.next else registry.find? key := by
  cases change with
  | register kind provider capability =>
    unfold apply register find? Change.key
    dsimp only
    rw [List.lookup_cons]
    split
    . next heq =>
      rw [if_pos (eq_of_beq heq).symm]
      rfl
    . next hne =>
      have hkey : Key.of kind provider ≠ key := (ne_of_beq_false hne).symm
      rw [lookup_filter, if_neg hkey, if_neg hkey]
  | unregister kind provider => exact lookup_filter registry.entries (Key.of kind provider) key

theorem next_after (changes : List Change)
    : (after changes).next = changes.countP Change.registers := by
  induction changes using List.reverseRecOn with
  | nil => rfl
  | append_singleton changes change ih =>
    rw [after_append, List.countP_append, ← ih]
    cases change <;> rfl

/-- A registry finds exactly what is live. -/
theorem find?_after_iff : (after changes).find? key = some backend ↔ IsLive changes key backend := by
  induction changes using List.reverseRecOn with
  | nil => exact iff_of_false nofun not_isLive_nil
  | append_singleton changes change ih =>
    rw [after_append, find?_apply, isLive_append_iff, ← ih, ← next_after]
    by_cases hkey : change.key = key
    . rw [if_pos hkey]
      simp only [hkey, ne_eq, not_true, false_and, or_false, true_and]
    . rw [if_neg hkey]
      simp only [hkey, ne_eq, not_false_eq_true, false_and, false_or, true_and]

theorem find?_after_eq_none_iff
    : (after changes).find? key = none ↔ ∀ other, ¬ IsLive changes key other := by
  rw [Option.eq_none_iff_forall_ne_some]
  exact forall_congr' fun other => not_congr find?_after_iff

theorem isSome_find?_after_iff
    : ((after changes).find? key).isSome ↔ ∃ backend, IsLive changes key backend := by
  rw [Option.isSome_iff_exists]
  exact exists_congr fun backend => find?_after_iff

section Keys

theorem nodup_apply {registry : Registry} (h : (registry.entries.map Prod.fst).Nodup)
    (change : Change)
    : ((registry.apply change).entries.map Prod.fst).Nodup := by
  have hleft (key : Key) : ((registry.entries.filter (·.1 ≠ key)).map Prod.fst).Nodup :=
    h.sublist (List.filter_sublist.map Prod.fst)
  cases change with
  | register kind provider capability =>
    refine List.nodup_cons.mpr ⟨?_, hleft _⟩
    rw [List.mem_map]
    rintro ⟨entry, hentry, hkey⟩
    exact of_decide_eq_true (List.mem_filter.mp hentry).2 hkey
  | unregister kind provider => exact hleft _

theorem nodup_after (changes : List Change) : ((after changes).entries.map Prod.fst).Nodup := by
  induction changes using List.reverseRecOn with
  | nil => exact List.nodup_nil
  | append_singleton changes change ih =>
    rw [after_append]
    exact nodup_apply ih change

variable {registry : Registry}

theorem mem_keys_iff : key ∈ registry.keys ↔ (registry.find? key).isSome := by
  unfold keys find?
  rw [List.mem_mergeSort, List.mem_map, List.lookup_isSome_iff]
  exact exists_congr fun entry => and_congr_right' (by rw [beq_iff_eq, eq_comm])

theorem sortedLT_keys (h : (registry.entries.map Prod.fst).Nodup)
    : (registry.keys.map Key.rank).SortedLT := by
  have htrans (a b c : Key) (hab : a.notAfter b = true) (hbc : b.notAfter c = true)
      : a.notAfter c = true := by
    rw [Key.notAfter_iff] at hab hbc ⊢
    exact le_trans hab hbc
  have htotal (a b : Key) : (a.notAfter b || b.notAfter a) = true := by
    rw [Bool.or_eq_true, Key.notAfter_iff, Key.notAfter_iff]
    exact le_total _ _
  rw [List.sortedLT_iff_nodup_and_sortedLE]
  constructor
  . apply List.Nodup.map Key.rank_injective
    exact (List.mergeSort_perm _ _).nodup_iff.mpr h
  . apply List.Pairwise.sortedLE
    rw [List.pairwise_map]
    exact (List.pairwise_mergeSort htrans htotal _).imp fun {a b} => (Key.notAfter_iff a b).mp

end Keys

/--
After any calls a registry is the map of what is live. For a kind and a provider it finds what is
live under them, or else what is live under the kind alone; there is something to unregister exactly
if something is live; and its keys are those under which something is live, in strictly ascending
order. The key of a kind and a provider is the one that they spell.
-/
theorem after_is_live_map (changes : List Change)
    : let registry := after changes
      (∀ kind provider backend,
        registry.get? kind provider = some backend
          ↔
        IsLive changes (Key.of kind provider) backend ∨
        (∀ other, ¬ IsLive changes (Key.of kind provider) other) ∧
          IsLive changes (Key.of kind none) backend) ∧
      (∀ kind provider,
        registry.contains kind provider ↔ ∃ backend, IsLive changes (Key.of kind provider) backend) ∧
      (∀ key, key ∈ registry.keys ↔ ∃ backend, IsLive changes key backend) ∧
      (registry.keys.map Key.rank).SortedLT ∧
      ∀ kind provider key, Key.of kind provider = key ↔ key.IsSpelled kind provider := by
  dsimp only
  refine ⟨?_, ?_, ?_, sortedLT_keys (nodup_after changes), fun _ _ _ => Key.of_eq_iff⟩
  . intro kind provider backend
    unfold get?
    rw [Option.or_eq_some_iff, find?_after_iff, find?_after_iff, find?_after_eq_none_iff]
  . intro kind provider
    exact isSome_find?_after_iff
  . intro key
    rw [mem_keys_iff, isSome_find?_after_iff]

/-- Another provider of the kind is served by the default, until that is unregistered. -/
example :
    let changes :=
      [.register "llm" none .echo, .register "LLM" (some " OpenAI") .echo, .unregister "Llm " (some "")]
    ((after (changes.take 2)).get? "llm" (some "local")).map Backend.number = some 0 ∧
    ((after changes).get? "llm" (some "local")).map Backend.number = none ∧
    ((after changes).get? "llm" (some "openai")).map Backend.number = some 1 := by
  decide +kernel

end Registry

end Runbook
